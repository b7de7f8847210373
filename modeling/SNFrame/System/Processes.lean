import Mathlib.Logic.Function.Basic
import SNFrame.Core.CommonProto
import SNFrame.Library.Transition
import SNFrame.Receive.Callback
import SNFrame.System.Services

/-! Processes of the program and the TCP connections between them. A process takes the steps of
`Core.NodeMgr`; what its connections give to the kernel arrives at the other end, and what `parse`
hands on is handled before the event thread does anything else. -/

namespace SNFrame.System.Processes
open Library.Octet Library.Transition Base.PbBuf Core.Receiving Core.Sending Core.TcpParse
open Core.NetManager Core.NodeMgr Core.CommonProto Receive.Callback
open Services (broadcastStep)

/-- A process, and the pointer to one of its connections. -/
abbrev Endpoint := Nat × Nat

/-- The connections as the kernels see them. `caller` has called `connect`, and is `pending` until
the other process accepts or refuses it; `severed` has failed in `sendBlock`. -/
structure Wires where
  caller : Endpoint → Bool
  pending : Endpoint → Bool
  peer : Endpoint → Option Endpoint
  given : Endpoint → List Byte
  received : Endpoint → List Byte
  severed : Endpoint → Bool

namespace Wires

def idle : Wires :=
  ⟨fun _ => false, fun _ => false, fun _ => none, fun _ => [], fun _ => [], fun _ => false⟩

def dial (wires : Wires) (caller : Endpoint) : Wires :=
  { wires with
    caller := Function.update wires.caller caller true
    pending := Function.update wires.pending caller true }

def refuse (wires : Wires) (caller : Endpoint) : Wires :=
  { wires with pending := Function.update wires.pending caller false }

def join (wires : Wires) (caller server : Endpoint) : Wires :=
  { wires.refuse caller with
    peer := Function.update (Function.update wires.peer caller (some server)) server
      (some caller) }

def give (wires : Wires) (sender : Endpoint) (bytes : List Byte) : Wires :=
  { wires with given := Function.update wires.given sender (wires.given sender ++ bytes) }

def receive (wires : Wires) (receiver : Endpoint) (bytes : List Byte) : Wires :=
  { wires with
    received := Function.update wires.received receiver (wires.received receiver ++ bytes) }

/-- `sendBlock` of a message, of which the kernel takes this many bytes. -/
def sendBlock (wires : Wires) (sender : Endpoint) (msg : IMString) (sent : Nat) : Wires :=
  let wires := wires.give sender (msg.bytes.take sent)
  if sent < msg.bytes.length then
    { wires with severed := Function.update wires.severed sender true }
  else wires

/-- What the other end has given to the kernel. -/
def arrives (wires : Wires) (receiver : Endpoint) : List Byte :=
  match wires.peer receiver with
  | none => []
  | some sender => wires.given sender

end Wires

/-- The processes, the messages that each still has to handle in its callback, and the wires. -/
structure Cluster where
  sys : Nat → Sys
  inbox : Nat → List (Nat × Dispatch)
  wires : Wires

/-- What one body of a loop meets outside the program, and how many bytes of a request
`sendBlock` gets rid of before it returns. -/
structure Trip extends Visit where
  sent : Nat

namespace Cluster

def start (types : Nat → List (BitVec 16)) : Cluster :=
  ⟨fun p => Supervision.start (types p), fun _ => [], .idle⟩

/-- An effect of a step of the process, whose tables are now these. -/
def absorb (p : Nat) (net : Net) (sent : Nat) (cluster : Cluster) : Effect → Cluster
  | .dispatch addr message =>
      { cluster with
        inbox := Function.update cluster.inbox p (cluster.inbox p ++ [(addr, message)]) }
  | .sendBlock fd msg =>
      match net.findFd fd with
      | none => cluster
      | some conn => { cluster with wires := cluster.wires.sendBlock (p, conn.addr) msg sent }
  | .notifyApp .. => cluster

/-- The wires once the tables of the process have changed: a client under the pointer that was next
is a new caller. -/
def dialled (wires : Wires) (p : Nat) (before after : Net) : Wires :=
  match after.deref before.next with
  | none => wires
  | some conn => if conn.flag = .conn_client then wires.dial (p, before.next) else wires

/-- The process comes into its next state. -/
def enter (cluster : Cluster) (p sent : Nat) (next : Sys) : Cluster :=
  let before := cluster.sys p
  (next.effects.drop before.effects.length).foldl (absorb p next.net sent)
    { cluster with
      sys := Function.update cluster.sys p next
      wires := dialled cluster.wires p before.net next.net }

def act (cluster : Cluster) (p sent : Nat) (body : Sys → Option Sys) : Option Cluster :=
  (body (cluster.sys p)).map (cluster.enter p sent)

/-- An action of the process in which no request goes through `sendBlock`. -/
def perform (proto : Proto) (cluster : Cluster) (p : Nat) (action : Action) : Option Cluster :=
  cluster.act p 0 (step proto · action)

/-- `ServiceNode::checkState`, node by node. -/
def checkState (proto : Proto) (p service : Nat) (trips : Nat → Trip) (cluster : Cluster) :
    Option Cluster := do
  let snode ← (cluster.sys p).services[service]?
  (snode.m_nodes.map Node.addr).foldlM (fun cluster place =>
    cluster.act p (trips place).sent fun sys =>
      sys.checkNode proto snode.m_sid (fun place => (trips place).toVisit) place) cluster

/-- One listed type of one server, and whether the loops go on. -/
def addServer (proto : Proto) (p : Nat) (trip : Trip) (type : BitVec 16) (server : ServerStatus)
    (cluster : Cluster) : Option (Cluster × Bool) :=
  ((cluster.sys p).addServer proto trip.toVisit type server).map fun both =>
    (cluster.enter p trip.sent both.1, both.2)

/-- `RouterNode::srvinfoBroadcast`, server by server. -/
def srvinfoBroadcast (proto : Proto) (p : Nat) (trips : Nat → Trip) (msg : IMString)
    (cluster : Cluster) : Option Cluster :=
  match proto.parseStatusPush (payload msg) with
  | none => some cluster
  | some servers => ((listed servers).zipIdx.foldlM (fun (state : Cluster × Bool) each =>
      if state.2 then state.1.addServer proto p (trips each.2) each.1.1 each.1.2
      else some state) (cluster, true)).map Prod.fst

/-- `parseCommonProto` with `NodeMgr::parse` and `RouterNode::parse`. The register response leaves
the tables alone, when the text of its id has room: what it starts is the timer. -/
def parseCommonProto (proto : RouterProto) (p : Nat) (heap : Heap) (trips : Nat → Trip)
    (addr : Nat) (msg : IMString) (cluster : Cluster) : Option Cluster :=
  let sid := getSid heap msg
  let cid := getCmd heap msg
  if sid = proto.SID_OTHER then
    if cid = proto.CID_OTHER_AUTHENTICATION_REQ then
      cluster.perform proto.toProto p (.authenticationReq addr msg heap)
    else if cid = proto.CID_OTHER_AUTHENTICATION_RSP then
      cluster.perform proto.toProto p (.authenticationRsp addr msg heap)
    else some cluster
  else if sid = proto.SID_ROUTER ∧ ((cluster.sys p).findService sid).isSome then
    if cid = proto.CID_ROUTER_CLIENT_REGISTER_RSP then
      if proto.idFits msg then some cluster else none
    else if cid = proto.CID_ROUTER_PUSH_SERVER_STATUS then
      cluster.srvinfoBroadcast proto.toProto p trips msg
    else some cluster
  else some cluster

/-- The event thread handles the next message that `parse` has handed on. What a handler of the
application does is steps of its own. -/
def handle (proto : RouterProto) (p : Nat) (heap : Heap) (trips : Nat → Trip)
    (cluster : Cluster) : Option Cluster :=
  match cluster.inbox p with
  | [] => none
  | (addr, message) :: rest =>
      let cluster := { cluster with inbox := Function.update cluster.inbox p rest }
      match message with
      | .common msg => cluster.parseCommonProto proto p heap trips addr msg
      | .handler .. => some cluster

/-- `TcpServer::read`, while libevent has the event. The bytes are the next ones of the other
end. -/
def read (proto : Proto) (p addr : Nat) (event : ReadEvent) (heap : Heap) (cluster : Cluster) :
    Option Cluster := do
  let conn ← (cluster.sys p).net.deref addr
  let chunk := (handed conn.recv event).1
  if conn.revent ∧ conn.evs &&& AE_ACCEPTABLE = 0 ∧
      cluster.wires.received (p, addr) ++ chunk <+: cluster.wires.arrives (p, addr) then
    (cluster.perform proto p (.read addr event heap)).map fun next =>
      { next with wires := next.wires.receive (p, addr) chunk }
  else none

/-- `TcpServer::write`, while libevent has the event. A socket whose `send` has failed takes
nothing any more. -/
def write (proto : Proto) (p addr : Nat) (outcomes : List SendResult) (heap : Heap)
    (cluster : Cluster) : Option Cluster := do
  let conn ← (cluster.sys p).net.deref addr
  let (_, _, accepted) ← (cluster.sys p).net.writeConn addr outcomes
  if conn.wevent ∧ (cluster.wires.severed (p, addr) → accepted = []) then
    (cluster.perform proto p (.write addr outcomes heap)).map fun next =>
      { next with wires := next.wires.give (p, addr) accepted }
  else none

/-- `NetServer::accept` of a caller that is pending. When there is no memory for it, or it cannot
be made nonblocking, its descriptor is closed. -/
def accept (proto : Proto) (p : Nat) (event : Net.AcceptEvent) (caller : Endpoint)
    (cluster : Cluster) : Option Cluster :=
  let server := (p, (cluster.sys p).net.next)
  if cluster.wires.pending caller ∧ 0 < event.fd then
    (cluster.perform proto p (.accept event)).map fun next =>
      { next with wires :=
          if ((next.sys p).net.deref server.2).isSome then next.wires.join caller server
          else next.wires.refuse caller }
  else none

end Cluster

/-- The steps of a process: `handle` and the last three are the event thread's, which begins
no callback before the messages of the last one are handled. -/
inductive Event where
  | sendSock (msg : IMString) (fd : Int)
  | sendNode (msg : IMString) (nid : BitVec 32)
  | sendDb (msg : IMString)
  | sendState (msg : IMString)
  | handle (heap : Heap) (trips : Nat → Trip)
  | listen (fd : Int)
  | connect (fd : Int)
  | accept (event : Net.AcceptEvent) (caller : Endpoint)
  | read (addr : Nat) (event : ReadEvent) (heap : Heap)
  | write (addr : Nat) (outcomes : List SendResult) (heap : Heap)
  | checkState (service : Nat) (trips : Nat → Trip)
  | registReq (visit : Visit)

/-- The start of a callback. -/
def begin (proto : Proto) (cluster : Cluster) (p : Nat) : Event → Option Cluster
  | .listen fd => cluster.perform proto p (.listen fd)
  | .connect fd => cluster.perform proto p (.connect fd)
  | .accept event caller => cluster.accept proto p event caller
  | .read addr event heap => cluster.read proto p addr event heap
  | .write addr outcomes heap => cluster.write proto p addr outcomes heap
  | .checkState service trips => cluster.checkState proto p service trips
  | .registReq visit => cluster.perform proto p (.registReq visit)
  | _ => none

/-- A step of process `p`. -/
def step (proto : RouterProto) (cluster : Cluster) : Nat × Event → Option Cluster
  | (p, .sendSock msg fd) => cluster.perform proto.toProto p (.sendSock msg fd)
  | (p, .sendNode msg nid) => cluster.perform proto.toProto p (.sendNode msg nid)
  | (p, .sendDb msg) => cluster.perform proto.toProto p (.sendDb msg)
  | (p, .sendState msg) => cluster.perform proto.toProto p (.sendState msg)
  | (p, .handle heap trips) => cluster.handle proto p heap trips
  | (p, event) => if cluster.inbox p = [] then begin proto.toProto cluster p event else none

/-! ### What the process itself does

The tables of a process are those of `Core.NodeMgr`, and its messages are handled as by
`Host.parseCommonProto`. -/

section Projection
variable {cluster : Cluster} {p : Nat} {proto : Proto}

theorem absorb_sys (p : Nat) (net : Net) (sent : Nat) (cluster : Cluster) (effect : Effect) :
    (Cluster.absorb p net sent cluster effect).sys = cluster.sys := by
  unfold Cluster.absorb
  split
  · rfl
  · split <;> rfl
  · rfl

theorem enter_sys (cluster : Cluster) (p sent : Nat) (next : Sys) :
    (cluster.enter p sent next).sys = Function.update cluster.sys p next := by
  have kept : ∀ (effects : List Effect) (cluster : Cluster),
      (effects.foldl (Cluster.absorb p next.net sent) cluster).sys = cluster.sys := by
    intro effects
    induction effects with
    | nil => exact fun _ => rfl
    | cons effect effects ih => exact fun cluster => (ih _).trans (absorb_sys ..)
  exact kept _ _

theorem act_sys (cluster : Cluster) (p sent : Nat) (body : Sys → Option Sys) :
    (cluster.act p sent body).map Cluster.sys =
      (body (cluster.sys p)).map (Function.update cluster.sys p) := by
  simp only [Cluster.act, Option.map_map, Function.comp_def, enter_sys]

/-- A loop over a state that holds another one is the loop over that one. -/
theorem foldlM_tracks {α State Part Whole : Type*} {loop : State → α → Option State}
    (own : Part → α → Option Part) (part : State → Part) (into : State → Part → Whole)
    (whole : State → Whole)
    (tracks : ∀ state each, (loop state each).map whole = (own (part state) each).map (into state))
    (keeps : ∀ state next last, whole next = into state last →
      part next = last ∧ into next = into state)
    (holds : ∀ state, whole state = into state (part state)) (state : State) (items : List α) :
    (items.foldlM loop state).map whole = (items.foldlM own (part state)).map (into state) := by
  induction items generalizing state with
  | nil => exact congrArg some (holds state)
  | cons each items ih =>
    have first := tracks state each
    simp only [List.foldlM_cons, Option.bind_eq_bind]
    cases moved : loop state each with
    | none =>
      rw [moved, Option.map_none, eq_comm, Option.map_eq_none_iff] at first
      rw [first]
      rfl
    | some next =>
      rw [moved, Option.map_some, eq_comm, Option.map_eq_some_iff] at first
      obtain ⟨last, stepped, same⟩ := first
      obtain ⟨rfl, sameInto⟩ := keeps state next last same.symm
      rw [stepped, Option.bind_some, Option.bind_some, ih, sameInto]

theorem update_keeps {before after : Nat → Sys} {last : Sys}
    (same : after = Function.update before p last) :
    after p = last ∧ Function.update after p = Function.update before p := by
  subst same
  refine ⟨Function.update_self .., ?_⟩
  funext sys
  exact Function.update_idem ..

theorem checkState_sys (cluster : Cluster) (p service : Nat) (trips : Nat → Trip) :
    (cluster.checkState proto p service trips).map Cluster.sys =
      ((cluster.sys p).checkState proto service fun place => (trips place).toVisit).map
        (Function.update cluster.sys p) := by
  simp only [Cluster.checkState, Sys.checkState, Option.bind_eq_bind]
  cases (cluster.sys p).services[service]? with
  | none => rfl
  | some snode =>
    rw [Option.bind_some, Option.bind_some]
    exact foldlM_tracks _ (Cluster.sys · p) (fun cluster => Function.update cluster.sys p) Cluster.sys
      (fun cluster place => act_sys ..) (fun _ _ _ same => update_keeps same)
      (fun cluster => (Function.update_eq_self ..).symm) cluster _

theorem addServer_sys (cluster : Cluster) (p : Nat) (trip : Trip) (type : BitVec 16)
    (server : ServerStatus) :
    (cluster.addServer proto p trip type server).map (fun both => (both.1.sys, both.2)) =
      ((cluster.sys p).addServer proto trip.toVisit type server).map fun both =>
        (Function.update cluster.sys p both.1, both.2) := by
  simp only [Cluster.addServer, Option.map_map, Function.comp_def, enter_sys]

theorem srvinfoBroadcast_sys (cluster : Cluster) (p : Nat) (trips : Nat → Trip) (msg : IMString) :
    (cluster.srvinfoBroadcast proto p trips msg).map Cluster.sys =
      ((cluster.sys p).srvinfoBroadcast proto (fun i => (trips i).toVisit) msg).map
        (Function.update cluster.sys p) := by
  unfold Cluster.srvinfoBroadcast Sys.srvinfoBroadcast
  cases proto.parseStatusPush (payload msg) with
  | none => simp
  | some servers =>
    have tracks : ∀ (state : Cluster × Bool) (each : (BitVec 16 × ServerStatus) × Nat),
        (if state.2 then state.1.addServer proto p (trips each.2) each.1.1 each.1.2
          else some state).map (fun state => (state.1.sys, state.2)) =
        (broadcastStep proto (fun i => (trips i).toVisit) (state.1.sys p, state.2) each).map
          fun last => (Function.update state.1.sys p last.1, last.2) := by
      intro state each
      unfold broadcastStep
      by_cases going : state.2 = true
      · rw [if_pos going, if_pos going]
        exact addServer_sys ..
      · rw [if_neg going, if_neg going, Option.map_some, Option.map_some, Function.update_eq_self]
    have loops := foldlM_tracks (broadcastStep proto fun i => (trips i).toVisit)
      (fun state : Cluster × Bool => (state.1.sys p, state.2))
      (fun state (last : Sys × Bool) => (Function.update state.1.sys p last.1, last.2))
      (fun state => (state.1.sys, state.2)) tracks ?_ ?_ (cluster, true) (listed servers).zipIdx
    · have firsts := congrArg (Option.map Prod.fst) loops
      simp only [Option.map_map, Function.comp_def] at firsts ⊢
      exact firsts
    · rintro state ⟨next, going⟩ ⟨last, goesOn⟩ same
      obtain ⟨sames, rfl⟩ := Prod.mk.inj same
      obtain ⟨rfl, keeps⟩ := update_keeps sames
      exact ⟨rfl, by rw [keeps]⟩
    · intro state
      rw [Function.update_eq_self]

/-- A register response changes no table. -/
theorem registRsp_sys (proto : RouterProto) (host : Host) (msg : IMString) :
    (host.registRsp proto msg).map (fun next => next.clock.sys) =
      if proto.idFits msg then some host.clock.sys else none := by
  unfold Host.registRsp RouterProto.idFits
  cases proto.parseRegisterServerRsp (payload msg) with
  | none => rfl
  | some nid =>
    simp only [Host.setId, Option.all_some, decide_eq_true_eq]
    split_ifs
    · rfl
    · rfl

/-- The tables after a message are those that `Host.parseCommonProto` leaves. -/
theorem parseCommonProto_sys (proto : RouterProto) (cluster : Cluster) (p : Nat) (heap : Heap)
    (trips : Nat → Trip) (addr : Nat) (msg : IMString) {host : Host}
    (same : host.clock.sys = cluster.sys p) :
    (cluster.parseCommonProto proto p heap trips addr msg).map Cluster.sys =
      (host.parseCommonProto proto ⟨addr, msg, heap, fun i => (trips i).toVisit⟩).map fun host =>
        Function.update cluster.sys p host.clock.sys := by
  have stays : Function.update cluster.sys p host.clock.sys = cluster.sys := by
    rw [same, Function.update_eq_self]
  simp only [Cluster.parseCommonProto, Host.parseCommonProto]
  by_cases other : getSid heap msg = proto.SID_OTHER
  · simp only [other, if_true, Host.parse]
    by_cases request : getCmd heap msg = proto.CID_OTHER_AUTHENTICATION_REQ
    · simp only [request, if_true, Cluster.perform, act_sys, Option.map_map, same]
      rfl
    · by_cases response : getCmd heap msg = proto.CID_OTHER_AUTHENTICATION_RSP
      · rw [if_neg request, if_neg request, if_pos response, if_pos response, Cluster.perform,
          act_sys, Option.map_map, same]
        rfl
      · simp only [request, if_false, response, Option.map_some, stays]
  · simp only [other, if_false]
    rw [← same]
    cases found : host.clock.sys.findService (getSid heap msg) with
    | none => simp [stays]
    | some snode =>
      have served : snode.m_sid = getSid heap msg := by
        simpa using List.find?_some found
      simp only [Option.isSome_some, and_true, Host.parseService, served]
      by_cases router : getSid heap msg = proto.SID_ROUTER
      · simp only [router, if_true, Host.parseRouter]
        by_cases registered : getCmd heap msg = proto.CID_ROUTER_CLIENT_REGISTER_RSP
        · have kept := congrArg (Option.map (Function.update cluster.sys p))
            (registRsp_sys proto host msg)
          rw [Option.map_map] at kept
          simp only [registered, if_true]
          refine Eq.trans ?_ kept.symm
          split_ifs
          · rw [Option.map_some, Option.map_some, stays]
          · rfl
        · by_cases push : getCmd heap msg = proto.CID_ROUTER_PUSH_SERVER_STATUS
          · rw [if_neg registered, if_neg registered, if_pos push, if_pos push,
              srvinfoBroadcast_sys, Option.map_map, ← same]
            rfl
          · simp only [registered, if_false, push, Option.map_some, stays]
      · simp only [router, if_false, Option.map_some, stays]

/-- The process takes a step of `Core.NodeMgr` or none, and the others take none. -/
def Takes (proto : Proto) (p : Nat) (cluster next : Cluster) : Prop :=
  (next.sys p = cluster.sys p ∨
    ∃ action, Core.NodeMgr.step proto (cluster.sys p) action = some (next.sys p)) ∧
  ∀ q ≠ p, next.sys q = cluster.sys q

theorem Takes.none {next : Cluster} (same : next.sys = cluster.sys) :
    Takes proto p cluster next :=
  ⟨.inl (by rw [same]), fun q _ => by rw [same]⟩

theorem takes_of_map {after : Option Cluster} {next : Cluster} {action : Action}
    (moves : after.map Cluster.sys =
      (Core.NodeMgr.step proto (cluster.sys p) action).map (Function.update cluster.sys p))
    (moved : after = some next) : Takes proto p cluster next := by
  rw [moved, Option.map_some, eq_comm, Option.map_eq_some_iff] at moves
  obtain ⟨sys, stepped, same⟩ := moves
  obtain ⟨rfl, -⟩ := update_keeps same.symm
  refine ⟨.inr ⟨action, stepped⟩, fun q apart => ?_⟩
  rw [← same, Function.update_of_ne apart]

theorem perform_takes {next : Cluster} {action : Action}
    (performed : cluster.perform proto p action = some next) : Takes proto p cluster next :=
  takes_of_map (act_sys ..) performed

theorem parseCommonProto_takes {proto : RouterProto} {heap : Heap} {trips : Nat → Trip}
    {addr : Nat} {msg : IMString} {next : Cluster}
    (done : cluster.parseCommonProto proto p heap trips addr msg = some next) :
    Takes proto.toProto p cluster next := by
  have moves : (cluster.srvinfoBroadcast proto.toProto p trips msg).map Cluster.sys =
      (Core.NodeMgr.step proto.toProto (cluster.sys p)
        (.srvinfoBroadcast msg fun i => (trips i).toVisit)).map (Function.update cluster.sys p) :=
    srvinfoBroadcast_sys ..
  unfold Cluster.parseCommonProto at done
  dsimp only at done
  split_ifs at done
  · exact perform_takes done
  · exact perform_takes done
  · cases done
    exact .none rfl
  · cases done
    exact .none rfl
  · exact takes_of_map moves done
  · cases done
    exact .none rfl
  · cases done
    exact .none rfl

theorem handle_takes {proto : RouterProto} {heap : Heap} {trips : Nat → Trip} {next : Cluster}
    (done : cluster.handle proto p heap trips = some next) :
    Takes proto.toProto p cluster next := by
  unfold Cluster.handle at done
  split at done
  · cases done
  · dsimp only at done
    split at done
    · have took := parseCommonProto_takes done
      exact ⟨took.1, took.2⟩
    · cases done
      exact .none rfl

theorem begin_takes {event : Event} {next : Cluster}
    (done : begin proto cluster p event = some next) : Takes proto p cluster next := by
  cases event with
  | listen fd => exact perform_takes done
  | connect fd => exact perform_takes done
  | accept event caller =>
    simp only [begin, Cluster.accept] at done
    split_ifs at done
    obtain ⟨after, performed, rfl⟩ := Option.map_eq_some_iff.mp done
    have took := perform_takes performed
    exact ⟨took.1, took.2⟩
  | read addr event heap =>
    obtain ⟨conn, -, done⟩ := Option.bind_eq_some_iff.mp done
    dsimp only at done
    split_ifs at done
    obtain ⟨after, performed, rfl⟩ := Option.map_eq_some_iff.mp done
    have took := perform_takes performed
    exact ⟨took.1, took.2⟩
  | write addr outcomes heap =>
    obtain ⟨conn, -, done⟩ := Option.bind_eq_some_iff.mp done
    obtain ⟨wrote, -, done⟩ := Option.bind_eq_some_iff.mp done
    dsimp only at done
    split_ifs at done
    obtain ⟨after, performed, rfl⟩ := Option.map_eq_some_iff.mp done
    have took := perform_takes performed
    exact ⟨took.1, took.2⟩
  | checkState service trips =>
    have moves : (cluster.checkState proto p service trips).map Cluster.sys =
        (Core.NodeMgr.step proto (cluster.sys p)
          (.checkState service fun place => (trips place).toVisit)).map
            (Function.update cluster.sys p) := checkState_sys ..
    exact takes_of_map moves done
  | registReq visit => exact perform_takes done
  | sendSock | sendNode | sendDb | sendState | handle => cases done

/-- A step of the cluster is a step of one process, on its own tables. -/
theorem step_takes {proto : RouterProto} {event : Event} {next : Cluster}
    (done : step proto cluster (p, event) = some next) : Takes proto.toProto p cluster next := by
  cases event with
  | sendSock | sendNode | sendDb | sendState => exact perform_takes done
  | handle heap trips => exact handle_takes done
  | listen | connect | accept | read | write | checkState | registReq =>
    simp only [step] at done
    split_ifs at done
    exact begin_takes done

/-- What every step of `Core.NodeMgr` keeps, every process of a run keeps. -/
theorem run_keeps {proto : RouterProto} (inv : Sys → Prop)
    (kept : ∀ sys action next, inv sys → Core.NodeMgr.step proto.toProto sys action = some next →
      inv next)
    {types : Nat → List (BitVec 16)} (initial : ∀ p, inv (Supervision.start (types p)))
    {events : List (Nat × Event)}
    (reached : run (step proto) (.start types) events = some cluster) (p : Nat) :
    inv (cluster.sys p) := by
  refine run_invariant (fun cluster => ∀ p, inv (cluster.sys p)) ?_ initial reached p
  rintro cluster ⟨p, event⟩ next holds stepped q
  obtain ⟨same | ⟨action, own⟩, others⟩ := step_takes stepped
  · by_cases equal : q = p
    · rw [equal, same]
      exact holds p
    · rw [others q equal]
      exact holds q
  · by_cases equal : q = p
    · rw [equal]
      exact kept _ _ _ (holds p) own
    · rw [others q equal]
      exact holds q

end Projection

end SNFrame.System.Processes
