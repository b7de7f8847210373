import SNFrame.Core.NetManager

/-! Every connection owns its queue. A well formed connection table can be read as a map from
pointers to connections with their messages, and each operation of NetManager updates that map. -/

namespace SNFrame.System.Ownership
open Function Library.Octet Library.Table Base.PbBuf Core.Receiving Core.Sending Core.TcpParse
open Core.NetManager

/-- A connection and the messages in its queue. -/
structure Owned where
  conn : Connection
  queue : List IMString

/-- Objects and descriptors are distinct, and no queue is shared or deleted under a connection. -/
structure Wf (net : Net) : Prop where
  addrs : (net.conns.map Connection.addr).Nodup
  fds : (net.conns.map Connection.fd).Nodup
  outBuffers : ∀ left ∈ net.conns, ∀ right ∈ net.conns,
    left.outBuffer = right.outBuffer → left.addr = right.addr
  below : ∀ conn ∈ net.conns, conn.addr < net.next ∧ conn.outBuffer < net.next
  queued : ∀ conn ∈ net.conns, (net.queues conn.outBuffer).isSome

def view (net : Net) (addr : Nat) : Option Owned :=
  (net.deref addr).bind fun conn => (net.queues conn.outBuffer).map (Owned.mk conn)

/-- A connection of the table has the queue, and deletes it with itself. -/
def HasOwner (net : Net) (queue : Nat) : Prop :=
  ∃ conn ∈ net.conns, conn.outBuffer = queue ∧ conn.cache = true

/-- The connection table is well formed and reads as this map, and the queues that exist have
their owner, less some that went astray. -/
structure Shows (strays : Nat → Prop) (net : Net) (table : Nat → Option Owned) : Prop where
  wf : Wf net
  reads : view net = table
  owned : ∀ queue, (net.queues queue).isSome → ¬strays queue → HasOwner net queue

def noStrays : Nat → Prop := fun _ => False

theorem Wf.shows {net : Net} (wf : Wf net) : Shows (fun _ => True) net (view net) where
  wf := wf
  reads := rfl
  owned := fun _ _ kept => absurd trivial kept

theorem empty_shows : Shows noStrays .empty fun _ => none where
  wf := by constructor <;> simp [Net.empty]
  reads := rfl
  owned := fun _ allocated => nomatch allocated

theorem view_eq_some {net : Net} {addr : Nat} {owned : Owned} :
    view net addr = some owned ↔
      net.deref addr = some owned.conn ∧ net.queues owned.conn.outBuffer = some owned.queue := by
  obtain ⟨conn, queue⟩ := owned
  simp only [view, Option.bind_eq_some_iff, Option.map_eq_some_iff, Owned.mk.injEq]
  constructor
  · rintro ⟨_, found, _, queued, rfl, rfl⟩
    exact ⟨found, queued⟩
  · rintro ⟨found, queued⟩
    exact ⟨conn, found, queue, queued, rfl, rfl⟩

section Reading
variable {strays : Nat → Prop} {net : Net} {table : Nat → Option Owned} {addr : Nat} {owned : Owned}

theorem Shows.deref (shown : Shows strays net table) (here : table addr = some owned) :
    net.deref addr = some owned.conn :=
  (view_eq_some.mp (shown.reads ▸ here)).1

theorem Shows.queues (shown : Shows strays net table) (here : table addr = some owned) :
    net.queues owned.conn.outBuffer = some owned.queue :=
  (view_eq_some.mp (shown.reads ▸ here)).2

theorem Shows.mem (shown : Shows strays net table) (here : table addr = some owned) :
    owned.conn ∈ net.conns ∧ owned.conn.addr = addr :=
  mem_of_lookup (shown.deref here)

theorem Shows.findFd (shown : Shows strays net table) (here : table addr = some owned) :
    net.findFd owned.conn.fd = some owned.conn :=
  find?_of_mem shown.wf.fds (shown.mem here).1

theorem Shows.emptyConn (shown : Shows strays net table) (here : table addr = some owned) :
    net.emptyConn owned.conn = some (empty owned.queue owned.conn.send) := by
  rw [Net.emptyConn, shown.queues here, Option.map_some]

theorem Shows.lt_next (shown : Shows strays net table) (here : table addr = some owned) :
    addr < net.next := by
  obtain ⟨inside, rfl⟩ := shown.mem here
  exact (shown.wf.below _ inside).1

/-- A connection of the table is in the map under its pointer. -/
theorem Shows.exists_of_mem (shown : Shows strays net table) {conn : Connection}
    (inside : conn ∈ net.conns) : ∃ queue, table conn.addr = some ⟨conn, queue⟩ := by
  obtain ⟨queue, queued⟩ := Option.isSome_iff_exists.mp (shown.wf.queued conn inside)
  use queue
  rw [← shown.reads]
  exact view_eq_some.mpr ⟨lookup_of_mem shown.wf.addrs inside, queued⟩

theorem Shows.exists_of_deref (shown : Shows strays net table) {conn : Connection}
    (found : net.deref addr = some conn) : ∃ queue, table addr = some ⟨conn, queue⟩ := by
  obtain ⟨inside, rfl⟩ := mem_of_lookup found
  exact shown.exists_of_mem inside

theorem Shows.fresh (shown : Shows strays net table) : table net.next = none := by
  cases here : table net.next with
  | none => rfl
  | some owned => exact absurd (shown.lt_next here) (lt_irrefl _)

/-- Two pointers to connections with one queue are equal. -/
theorem Shows.eq_of_outBuffer (shown : Shows strays net table) {other : Nat} {second : Owned}
    (here : table addr = some owned) (there : table other = some second)
    (same : owned.conn.outBuffer = second.conn.outBuffer) : addr = other := by
  obtain ⟨left, rfl⟩ := shown.mem here
  obtain ⟨right, rfl⟩ := shown.mem there
  exact shown.wf.outBuffers _ left _ right same

/-- A connection whose queue did not go astray deletes it. -/
theorem Shows.cached (shown : Shows strays net table) (here : table addr = some owned)
    (kept : ¬strays owned.conn.outBuffer) : owned.conn.cache = true := by
  obtain ⟨inside, -⟩ := shown.mem here
  obtain ⟨conn, connIn, has, deletes⟩ :=
    shown.owned owned.conn.outBuffer (by rw [shown.queues here]; rfl) kept
  have same := eq_of_key shown.wf.addrs connIn inside
    (shown.wf.outBuffers conn connIn _ inside has)
  rw [← same, deletes]

end Reading

/-! ### Assignments to fields -/

/-- The function leaves the object, its descriptor, its queue and their owner as they are. -/
structure Keeps (f : Connection → Connection) : Prop where
  addr : ∀ conn, (f conn).addr = conn.addr
  fd : ∀ conn, (f conn).fd = conn.fd
  outBuffer : ∀ conn, (f conn).outBuffer = conn.outBuffer
  cache : ∀ conn, (f conn).cache = conn.cache

section Assign
variable {strays : Nat → Prop} {net : Net} {table : Nat → Option Owned} {addr : Nat} {owned : Owned}

theorem wf_assign (wf : Wf net) {f : Connection → Connection} (keeps : Keeps f) :
    Wf (net.assign addr f) where
  addrs := by
    rw [Net.assign, map_update Connection.addr keeps.addr]
    exact wf.addrs
  fds := by
    rw [Net.assign, map_update Connection.fd keeps.fd]
    exact wf.fds
  outBuffers := by
    intro left leftIn right rightIn same
    obtain ⟨left, leftOld, rfl⟩ := mem_update.mp leftIn
    obtain ⟨right, rightOld, rfl⟩ := mem_update.mp rightIn
    simp only [apply_ite Connection.outBuffer, apply_ite Connection.addr, keeps.outBuffer,
      keeps.addr, ite_self] at same ⊢
    exact wf.outBuffers left leftOld right rightOld same
  below := by
    intro conn inside
    obtain ⟨old, oldIn, rfl⟩ := mem_update.mp inside
    simp only [apply_ite Connection.outBuffer, apply_ite Connection.addr, keeps.outBuffer,
      keeps.addr, ite_self]
    exact wf.below old oldIn
  queued := by
    intro conn inside
    obtain ⟨old, oldIn, rfl⟩ := mem_update.mp inside
    simp only [apply_ite Connection.outBuffer, keeps.outBuffer, ite_self]
    exact wf.queued old oldIn

theorem assign_shows (shown : Shows strays net table) (here : table addr = some owned)
    {f : Connection → Connection} (keeps : Keeps f) :
    Shows strays (net.assign addr f) (update table addr (some ⟨f owned.conn, owned.queue⟩)) where
  wf := wf_assign shown.wf keeps
  reads := by
    funext other
    rw [← shown.reads, view, Net.deref, Net.assign, lookup_update keeps.addr]
    by_cases same : other = addr
    · have found : lookup Connection.addr addr net.conns = some owned.conn := shown.deref here
      rw [same, if_pos rfl, found, update_self, Option.map_some, Option.bind_some, keeps.outBuffer,
        shown.queues here, Option.map_some]
    · rw [if_neg same, update_of_ne same, view, Net.deref]
  owned := by
    intro queue allocated kept
    obtain ⟨conn, inside, has, deletes⟩ := shown.owned queue allocated kept
    refine ⟨_, mem_update.mpr ⟨conn, inside, rfl⟩, ?_, ?_⟩
    · rw [apply_ite Connection.outBuffer, keeps.outBuffer, ite_self, has]
    · rw [apply_ite Connection.cache, keeps.cache, ite_self, deletes]

/-- What `addFileEvent` does to the connection that it finds. -/
def withEvent (mask : BitVec 16) (conn : Connection) : Connection :=
  if conn.evs &&& mask ≠ 0 then conn else { conn with evs := conn.evs ||| mask }.addEvent mask

/-- What `delFileEvent` does to the connection that it finds. -/
def withoutEvent (mask : BitVec 16) (conn : Connection) : Connection :=
  if conn.evs &&& mask ≠ 0 then
    { conn with evs := conn.evs &&& ~~~mask }.delEvent (conn.evs &&& mask)
  else conn

theorem or_and_self (evs mask : BitVec 16) : (evs ||| mask) &&& mask = mask := by
  ext i inside
  simp only [BitVec.getElem_and, BitVec.getElem_or]
  cases evs[i] <;> cases mask[i] <;> rfl

theorem addEvent_keeps (mask : BitVec 16) : Keeps fun conn => conn.addEvent mask := by
  constructor <;> intro conn <;> simp only [Connection.addEvent] <;> split_ifs <;> rfl

theorem withoutEvent_keeps (mask : BitVec 16) : Keeps (withoutEvent mask) := by
  constructor <;> intro conn <;> simp only [withoutEvent] <;> split_ifs <;> rfl

end Assign

/-! ### The operations -/

section Operations
variable {strays : Nat → Prop} {net : Net} {table : Nat → Option Owned} {addr : Nat} {owned : Owned}

theorem addFileEvent_shows (shown : Shows strays net table) (here : table addr = some owned)
    (mask : BitVec 16) : Shows strays (net.addFileEvent owned.conn.fd mask)
      (update table addr (some ⟨withEvent mask owned.conn, owned.queue⟩)) := by
  rw [Net.addFileEvent, shown.findFd here]
  simp only [withEvent]
  split_ifs with armed
  · rw [update_eq_self_iff.mpr here.symm]
    exact shown
  · have there := (shown.mem here).2
    subst there
    have kept : Keeps fun conn => { conn with evs := conn.evs ||| mask }.addEvent mask := by
      have adds := addEvent_keeps mask
      exact ⟨fun conn => adds.addr _, fun conn => adds.fd _, fun conn => adds.outBuffer _,
        fun conn => adds.cache _⟩
    exact assign_shows shown here kept

theorem delFileEvent_shows (shown : Shows strays net table) (here : table addr = some owned)
    (mask : BitVec 16) : Shows strays (net.delFileEvent owned.conn.fd mask)
      (update table addr (some ⟨withoutEvent mask owned.conn, owned.queue⟩)) := by
  rw [Net.delFileEvent, shown.findFd here]
  simp only [withoutEvent]
  split_ifs with armed
  · have there := (shown.mem here).2
    subst there
    have kept : Keeps fun conn =>
        { conn with evs := conn.evs &&& ~~~mask }.delEvent (owned.conn.evs &&& mask) :=
      ⟨fun _ => rfl, fun _ => rfl, fun _ => rfl, fun _ => rfl⟩
    exact assign_shows shown here kept
  · rw [update_eq_self_iff.mpr here.symm]
    exact shown

def setQueue (net : Net) (queue : Nat) (msgs : List IMString) : Net :=
  { net with queues := update net.queues queue (some msgs) }

theorem setQueue_of_ne (net : Net) {queue other : Nat} (apart : other ≠ queue)
    (msgs : List IMString) : (setQueue net queue msgs).queues other = net.queues other :=
  update_of_ne apart ..

/-- A write to the queue of one connection. No other connection reads that queue. -/
theorem setQueue_shows (shown : Shows strays net table) (here : table addr = some owned)
    (msgs : List IMString) : Shows strays (setQueue net owned.conn.outBuffer msgs)
      (update table addr (some ⟨owned.conn, msgs⟩)) where
  wf :=
    { addrs := shown.wf.addrs
      fds := shown.wf.fds
      outBuffers := shown.wf.outBuffers
      below := shown.wf.below
      queued := by
        intro conn inside
        by_cases same : conn.outBuffer = owned.conn.outBuffer
        · simp only [setQueue, same, update_self, Option.isSome_some]
        · simp only [setQueue, update_of_ne same]
          exact shown.wf.queued conn inside }
  reads := by
    funext other
    have found := shown.deref here
    by_cases same : other = addr
    · rw [same, update_self]
      apply view_eq_some.mpr
      exact ⟨found, update_self ..⟩
    · rw [update_of_ne same, ← shown.reads]
      cases there : net.deref other with
      | none =>
        have missing : (setQueue net owned.conn.outBuffer msgs).deref other = none := there
        rw [view, view, there, missing, Option.bind_none, Option.bind_none]
      | some conn =>
        obtain ⟨queue, second⟩ := shown.exists_of_deref there
        have apart : conn.outBuffer ≠ owned.conn.outBuffer :=
          fun equal => same (shown.eq_of_outBuffer second here equal)
        have stays : (setQueue net owned.conn.outBuffer msgs).deref other = some conn := there
        rw [view, view, there, stays, Option.bind_some, Option.bind_some,
          setQueue_of_ne net apart]
  owned := by
    intro queue allocated
    apply shown.owned queue
    by_cases same : queue = owned.conn.outBuffer
    · rw [same, shown.queues here]
      rfl
    · rw [← setQueue_of_ne net same msgs]
      exact allocated

theorem push_shows (shown : Shows strays net table) (here : table addr = some owned) (msg : IMString) :
    ∃ next, net.push owned.conn.outBuffer msg = some next ∧
      Shows strays next (update table addr (some ⟨owned.conn, owned.queue ++ [msg]⟩)) := by
  have pushed : net.push owned.conn.outBuffer msg =
      some (setQueue net owned.conn.outBuffer (owned.queue ++ [msg])) := by
    rw [Net.push, shown.queues here, Option.map_some, setQueue]
  exact ⟨_, pushed, setQueue_shows shown here _⟩

theorem wf_create (wf : Wf net) {fd : Int} (unused : net.findFd fd = none) :
    Wf (net.create fd) := by
  have others : ∀ conn ∈ net.conns, conn.fd ≠ fd := by
    intro conn inside
    simpa using List.find?_eq_none.mp unused conn inside
  have below := wf.below
  constructor
  · rw [Net.create, List.map_append, List.nodup_append]
    refine ⟨wf.addrs, List.nodup_singleton _, ?_⟩
    intro old oldIn new newIn
    obtain ⟨conn, inside, rfl⟩ := List.mem_map.mp oldIn
    rw [List.mem_singleton.mp newIn]
    exact ne_of_lt (below conn inside).1
  · rw [Net.create, List.map_append, List.nodup_append]
    refine ⟨wf.fds, List.nodup_singleton _, ?_⟩
    intro old oldIn new newIn
    obtain ⟨conn, inside, rfl⟩ := List.mem_map.mp oldIn
    rw [List.mem_singleton.mp newIn]
    exact others conn inside
  · intro left leftIn right rightIn same
    simp only [Net.create, List.mem_append, List.mem_singleton] at leftIn rightIn
    rcases leftIn with leftIn | rfl <;> rcases rightIn with rightIn | rfl
    · exact wf.outBuffers left leftIn right rightIn same
    · exact absurd same (ne_of_lt (below left leftIn).2)
    · exact absurd same.symm (ne_of_lt (below right rightIn).2)
    · rfl
  · intro conn inside
    simp only [Net.create, List.mem_append, List.mem_singleton] at inside ⊢
    rcases inside with inside | rfl
    · have small := below conn inside
      exact ⟨by omega, by omega⟩
    · exact ⟨Nat.lt_succ_self _, Nat.lt_succ_self _⟩
  · intro conn inside
    simp only [Net.create, List.mem_append, List.mem_singleton] at inside ⊢
    rcases inside with inside | rfl
    · rw [update_of_ne (ne_of_lt (below conn inside).2)]
      exact wf.queued conn inside
    · simp only [Connection.fresh, update_self, Option.isSome_some]

theorem create_shows (shown : Shows strays net table) {fd : Int} (unused : net.findFd fd = none) :
    Shows strays (net.create fd) (update table net.next (some ⟨.fresh net.next net.next fd, []⟩)) where
  wf := wf_create shown.wf unused
  reads := by
    have absent : ∀ old ∈ net.conns,
        old.addr ≠ (Connection.fresh net.next net.next fd).addr :=
      fun old inside => ne_of_lt (shown.wf.below old inside).1
    funext other
    rw [view, Net.deref, Net.create, lookup_append absent]
    by_cases same : other = net.next
    · rw [same, update_self]
      simp [Connection.fresh]
    · rw [update_of_ne same, ← shown.reads, view, Net.deref]
      have apart : other ≠ (Connection.fresh net.next net.next fd).addr := same
      rw [if_neg apart]
      cases there : lookup Connection.addr other net.conns with
      | none => rfl
      | some conn =>
        have small := (shown.wf.below conn (mem_of_lookup there).1).2
        simp only [Option.bind_some, update_of_ne (ne_of_lt small)]
  owned := by
    intro queue allocated kept
    by_cases same : queue = net.next
    · exact ⟨.fresh net.next net.next fd, by simp [Net.create], same.symm, rfl⟩
    · change (update net.queues net.next (some []) queue).isSome at allocated
      rw [update_of_ne same] at allocated
      obtain ⟨conn, inside, has⟩ := shown.owned queue allocated kept
      exact ⟨conn, List.mem_append_left _ inside, has⟩

/-- What closing does: the object leaves the table, and its queue is deleted or left. -/
theorem closeConnection_fields (shown : Shows strays net table) (here : table addr = some owned) :
    (net.closeConnection owned.conn.fd).conns = remove Connection.addr addr net.conns ∧
      (net.closeConnection owned.conn.fd).next = net.next ∧
      ∀ queue ≠ owned.conn.outBuffer,
        (net.closeConnection owned.conn.fd).queues queue = net.queues queue := by
  obtain ⟨-, rfl⟩ := shown.mem here
  rw [Net.closeConnection, shown.findFd here]
  by_cases cache : owned.conn.cache
  · simp only [cache, if_true, Net.deleteQueue, true_and]
    exact fun queue apart => update_of_ne apart ..
  · simp only [cache, Bool.false_eq_true, if_false, true_and, implies_true]

/-- A queue that is left after closing is not that of the closed connection. -/
theorem closeConnection_owned (shown : Shows strays net table) (here : table addr = some owned)
    {queue : Nat} (allocated : ((net.closeConnection owned.conn.fd).queues queue).isSome)
    (kept : ¬strays queue) : ∃ conn ∈ remove Connection.addr addr net.conns,
      conn.outBuffer = queue ∧ conn.cache = true := by
  obtain ⟨inside, rfl⟩ := shown.mem here
  by_cases same : queue = owned.conn.outBuffer
  · -- the closed connection owned it, and deleted it
    have deletes := shown.cached here (same ▸ kept)
    simp [Net.closeConnection, shown.findFd here, deletes, Net.deleteQueue, same] at allocated
  · rw [(closeConnection_fields shown here).2.2 queue same] at allocated
    obtain ⟨conn, connIn, has, deletes⟩ := shown.owned queue allocated kept
    refine ⟨conn, mem_remove.mpr ⟨connIn, ?_⟩, has, deletes⟩
    intro equal
    rw [eq_of_key shown.wf.addrs connIn inside equal] at has
    exact same has.symm

theorem closeConnection_shows (shown : Shows strays net table) (here : table addr = some owned) :
    Shows strays (net.closeConnection owned.conn.fd) (update table addr none) := by
  obtain ⟨conns, next, queues⟩ := closeConnection_fields shown here
  have wf := shown.wf
  have kept : ∀ {other : Nat} {second : Owned}, table other = some second → other ≠ addr →
      (net.closeConnection owned.conn.fd).queues second.conn.outBuffer =
        net.queues second.conn.outBuffer :=
    fun there differs => queues _ fun equal => differs (shown.eq_of_outBuffer there here equal)
  constructor
  · constructor
    · rw [conns]
      exact (map_remove_sublist _ _ _).nodup wf.addrs
    · rw [conns]
      exact (map_remove_sublist _ _ _).nodup wf.fds
    · rw [conns]
      intro left leftIn right rightIn
      exact wf.outBuffers left (mem_remove.mp leftIn).1 right (mem_remove.mp rightIn).1
    · rw [conns, next]
      intro conn stays
      exact wf.below conn (mem_remove.mp stays).1
    · rw [conns]
      intro conn stays
      obtain ⟨inside, differs⟩ := mem_remove.mp stays
      obtain ⟨queue, there⟩ := shown.exists_of_mem inside
      rw [kept there differs]
      exact wf.queued conn inside
  · funext other
    rw [view, Net.deref, conns, lookup_remove]
    by_cases same : other = addr
    · rw [same, if_pos rfl, update_self, Option.bind_none]
    · rw [if_neg same, update_of_ne same, ← shown.reads, view, Net.deref]
      cases found : lookup Connection.addr other net.conns with
      | none => rfl
      | some conn =>
        obtain ⟨queue, there⟩ := shown.exists_of_deref found
        simp only [Option.bind_some, kept there same]
  · intro queue allocated unstrayed
    rw [HasOwner, conns]
    exact closeConnection_owned shown here allocated unstrayed

/-- The connection after a send function has given it a message. -/
def Owned.sent (arms : ConnState → Bool) (msg : IMString) (owned : Owned) : Owned where
  conn := if arms owned.conn.state then withEvent AE_WRITABLE owned.conn else owned.conn
  queue := owned.queue ++ [msg]

theorem sendFirst_of_find (shown : Shows strays net table) (here : table addr = some owned)
    {isTarget : Connection → Bool} (arms : ConnState → Bool) (msg : IMString)
    (found : net.conns.find? isTarget = some owned.conn) :
    ∃ next, net.sendFirst isTarget arms msg = some (0, next) ∧
      Shows strays next (update table addr (some (owned.sent arms msg))) := by
  obtain ⟨pushed, push, after⟩ := push_shows shown here msg
  have there := update_self addr (some (Owned.mk owned.conn (owned.queue ++ [msg]))) table
  simp only [Net.sendFirst, found, push, Option.map_some, Owned.sent]
  refine ⟨_, rfl, ?_⟩
  split_ifs
  · have armed := addFileEvent_shows after there AE_WRITABLE
    rw [update_idem] at armed
    exact armed
  · exact after

/-- A send function finds no connection and changes nothing, or gives one the message. -/
theorem sendFirst_cases (shown : Shows strays net table) (isTarget : Connection → Bool)
    (arms : ConnState → Bool) (msg : IMString) :
    net.sendFirst isTarget arms msg = some (-1, net) ∨
      ∃ addr owned next, table addr = some owned ∧ isTarget owned.conn ∧
        net.sendFirst isTarget arms msg = some (0, next) ∧
        Shows strays next (update table addr (some (owned.sent arms msg))) := by
  cases found : net.conns.find? isTarget with
  | none =>
    left
    simp only [Net.sendFirst, found]
  | some conn =>
    right
    obtain ⟨queue, here⟩ := shown.exists_of_mem (List.mem_of_find?_eq_some found)
    obtain ⟨next, sent, after⟩ := sendFirst_of_find shown here arms msg found
    exact ⟨conn.addr, ⟨conn, queue⟩, next, here, List.find?_some found, sent, after⟩

theorem sendSock_shows (shown : Shows strays net table) (here : table addr = some owned)
    (msg : IMString) : ∃ next, net.sendSock msg owned.conn.fd = some (0, next) ∧
      Shows strays next (update table addr (some (owned.sent (· = .STATE_CONNECTED) msg))) :=
  sendFirst_of_find shown here _ msg (shown.findFd here)

/-- A connection as `NetServer::connect` returns it. -/
def clientConn (addr : Nat) (fd : Int) : Connection :=
  withEvent AE_READABLE { Connection.fresh addr addr fd with flag := .conn_client }

/-- A connection fails, or there is a new client under the next pointer. -/
theorem connect_cases (shown : Shows strays net table) {fd : Int} {next : Net} {conn : Option Nat}
    (connected : net.connect fd = some (next, conn)) :
    ¬ 0 < fd ∧ conn = none ∧ next = net ∨
      0 < fd ∧ conn = some net.next ∧
        Shows strays next (update table net.next (some ⟨clientConn net.next fd, []⟩)) := by
  unfold Net.connect at connected
  by_cases valid : fd > 0
  · rw [if_pos valid] at connected
    cases unused : net.findFd fd with
    | some other => simp [unused] at connected
    | none =>
      simp only [unused, Option.isSome_none, Bool.false_eq_true, if_false, Option.some.injEq,
        Prod.mk.injEq] at connected
      obtain ⟨rfl, rfl⟩ := connected
      have created := create_shows shown unused
      have flagged := assign_shows created (update_self ..)
        (f := fun conn => { conn with flag := .conn_client })
        ⟨fun _ => rfl, fun _ => rfl, fun _ => rfl, fun _ => rfl⟩
      have armed := addFileEvent_shows flagged (update_self ..) AE_READABLE
      rw [update_idem, update_idem] at armed
      exact .inr ⟨valid, rfl, armed⟩
  · rw [if_neg valid] at connected
    cases connected
    exact .inl ⟨valid, rfl, rfl⟩

theorem listen_cases (shown : Shows strays net table) {fd : Int} {next : Net}
    (listening : net.listen fd = some next) :
    next = net ∨ Shows strays next (update table net.next
      (some ⟨withEvent AE_ACCEPTABLE (.fresh net.next net.next fd), []⟩)) := by
  unfold Net.listen at listening
  split_ifs at listening with valid used
  · have unused : net.findFd fd = none := by simpa using used
    cases listening
    have armed := addFileEvent_shows (create_shows shown unused) (update_self ..) AE_ACCEPTABLE
    rw [update_idem] at armed
    exact .inr armed
  · cases listening
    exact .inl rfl

/-- A connection as `NetServer::accept` adds it. -/
def serverConn (addr : Nat) (fd : Int) : Connection :=
  withEvent AE_READABLE
    { Connection.fresh addr addr fd with flag := .conn_server, state := .STATE_AUTH }

theorem accept_cases (shown : Shows strays net table) {event : Net.AcceptEvent} {next : Net}
    (accepted : net.accept event = some next) :
    next = net ∨
      Shows strays next (update table net.next (some ⟨serverConn net.next event.fd, []⟩)) := by
  unfold Net.accept at accepted
  split_ifs at accepted with failed used ready
  · cases accepted
    exact .inl rfl
  · have unused : net.findFd event.fd = none := by simpa using used
    cases accepted
    have created := create_shows shown unused
    have flagged := assign_shows created (update_self ..)
      (f := fun conn => { conn with flag := .conn_server, state := .STATE_AUTH })
      ⟨fun _ => rfl, fun _ => rfl, fun _ => rfl, fun _ => rfl⟩
    have armed := addFileEvent_shows flagged (update_self ..) AE_READABLE
    rw [update_idem, update_idem] at armed
    exact .inr armed
  · cases accepted
    exact .inl rfl

/-- The connection after `Connection::write`. -/
def Owned.written (outcomes : List SendResult) (owned : Owned) : Owned where
  conn := { owned.conn with send := (write outcomes owned.queue owned.conn.send).send }
  queue := (write outcomes owned.queue owned.conn.send).queue

theorem writeConn_shows (shown : Shows strays net table) (here : table addr = some owned)
    (outcomes : List SendResult) :
    ∃ next, net.writeConn addr outcomes = some (next,
        (write outcomes owned.queue owned.conn.send).result,
        (write outcomes owned.queue owned.conn.send).accepted) ∧
      Shows strays next (update table addr (some (owned.written outcomes))) := by
  have queued := setQueue_shows shown here (write outcomes owned.queue owned.conn.send).queue
  have stored := assign_shows queued (update_self ..)
    (f := fun conn => { conn with send := (write outcomes owned.queue owned.conn.send).send })
    ⟨fun _ => rfl, fun _ => rfl, fun _ => rfl, fun _ => rfl⟩
  rw [update_idem] at stored
  simp only [Net.writeConn, shown.deref here, shown.queues here, Option.bind_eq_bind,
    Option.bind_some]
  exact ⟨_, rfl, stored⟩

end Operations

end SNFrame.System.Ownership
