import SNFrame.Core.CommonProto
import SNFrame.System.NodeTable
import SNFrame.System.Schedule

/-! The supervision of the nodes is a timer that a register response starts. Every response adds
another one, and each of them calls `cron` in every tick. -/

namespace SNFrame.System.Ticks
open Library.Transition Base.PbBuf Core.NetManager Core.CommonProto Core.Timer
open Tables Supervision Services NodeTable Schedule
open Core.NodeMgr hiding step
open Core.Heartbeat hiding step Event

/-- The program before its first step, with the services of its configuration. -/
def launch (types : List (BitVec 16)) : Host := ⟨boot types, .fresh, 0⟩

/-- How many timers call `NodeMgr::cron`. -/
def crons (host : Host) : Nat := host.timer.m_timers.countP (·.cb = .nodeMgr)

/-- A register response that parses. -/
def registers (proto : RouterProto) : Core.CommonProto.Event → Bool
  | .message arrival =>
      getSid arrival.heap arrival.msg ≠ proto.SID_OTHER &&
        getSid arrival.heap arrival.msg = proto.SID_ROUTER &&
        getCmd arrival.heap arrival.msg = proto.CID_ROUTER_CLIENT_REGISTER_RSP &&
        (proto.parseRegisterServerRsp (payload arrival.msg)).isSome
  | _ => false

/-- A tick calls `cron` at most once, and once the node manager has been started no message changes
the timers any more. -/
def Scheduled (proto : RouterProto) (host : Host) (event : Core.CommonProto.Event) : Prop :=
  ∀ next, step proto host event = some next →
    next.clock.ticks ≤ host.clock.ticks + 1 ∧
      (crons host ≠ 0 → (∃ arrival, event = .message arrival) → next.timer = host.timer)

/-! ### What a step does to the timers -/

/-- The table as objects, with the services of the configuration. -/
def Steady (types : List (BitVec 16)) (sys : Sys) : Prop :=
  Consistent sys ∧ (outline sys).map Shelf.m_sid = types

theorem steady_start (types : List (BitVec 16)) : Steady types (start types) := by
  refine ⟨start_consistent types, ?_⟩
  simp only [outline, start, List.map_map]
  exact List.map_id types

section Steps
variable {proto : RouterProto} {types : List (BitVec 16)} {host next : Host}

theorem steady_step {sys after : Sys} {action : Action} (steady : Steady types sys)
    (stepped : Core.NodeMgr.step proto.toProto sys action = some after) : Steady types after :=
  ⟨step_consistent steady.1 stepped, (step_sids steady.1 stepped).trans steady.2⟩

theorem serve_steady {around : Around} {clock after : Clock} {service : Nat}
    (steady : Steady types clock.sys)
    (done : serve proto.toHeartbeatProto around clock service = some after) :
    Steady types after.sys ∧ after.ticks = clock.ticks := by
  obtain ⟨sys, checked, beat⟩ := Option.bind_eq_some_iff.mp done
  have action : Core.NodeMgr.step proto.toProto clock.sys
      (.checkState service (around.visits service)) = some sys := checked
  have checkedSteady := steady_step steady action
  rw [heartBeat] at beat
  split_ifs at beat
  · cases beat
    exact ⟨checkedSteady, rfl⟩
  · obtain ⟨snode, served, beat⟩ := Option.bind_eq_some_iff.mp beat
    obtain ⟨last, looped, ended⟩ := Option.bind_eq_some_iff.mp beat
    have still : Consistent ({ clock with sys := sys } : Clock).sys := checkedSteady.1
    obtain ⟨same, visited, beaten⟩ := beatNodes_spec proto.toHeartbeatProto around.heaps still
      fun node listed => (sublist_nodesOf (List.mem_of_getElem? served)).mem listed
    cases visited.symm.trans looped
    cases ended
    have shelves : outline last.sys = outline sys := congrArg (List.map shelfOf) beaten.services
    exact ⟨⟨beaten.consistent, (congrArg _ shelves).trans checkedSteady.2⟩, beaten.ticks⟩

theorem cron_steady {around : Around} {clock after : Clock} (steady : Steady types clock.sys)
    (done : cron proto.toHeartbeatProto around clock = some after) :
    Steady types after.sys ∧ after.ticks = clock.ticks + 1 := by
  obtain ⟨last, served, ended⟩ := Option.bind_eq_some_iff.mp done
  rw [foldlM_eq_run] at served
  cases ended
  have stays := run_invariant (fun state : Clock =>
    Steady types state.sys ∧ state.ticks = clock.ticks) ?_ ⟨steady, rfl⟩ served
  · exact ⟨stays.1, congrArg (· + 1) stays.2⟩
  · rintro state service later ⟨holds, same⟩ stepped
    have kept := serve_steady holds stepped
    exact ⟨kept.1, kept.2.trans same⟩

/-- The calls of one tick: each call of `NodeMgr::timer` is a call of `cron`. -/
theorem callTimers_spec {around : Nat → Around} {calls : List (Nat × TimerHandler)}
    (steady : Steady types host.clock.sys)
    (done : calls.foldlM (Host.callTimer proto around) host = some next) :
    Steady types next.clock.sys ∧ next.timer = host.timer ∧
      next.clock.ticks = host.clock.ticks + calls.countP (·.2 = .nodeMgr) := by
  induction calls generalizing host with
  | nil =>
    cases done
    exact ⟨steady, rfl, rfl⟩
  | cons call calls ih =>
    rw [List.foldlM_cons] at done
    obtain ⟨middle, called, rest⟩ := Option.bind_eq_some_iff.mp done
    rw [Host.callTimer] at called
    rw [List.countP_cons]
    cases handler : call.2 with
    | nodeMgr =>
      rw [handler] at called
      obtain ⟨clock, ran, rfl⟩ := Option.map_eq_some_iff.mp called
      obtain ⟨kept, ticks⟩ := cron_steady steady ran
      obtain ⟨stays, timer, more⟩ := ih (by exact kept) rest
      refine ⟨stays, timer, ?_⟩
      rw [more, ticks]
      simp only [decide_true, if_true]
      omega
    | other id =>
      rw [handler] at called
      cases called
      obtain ⟨stays, timer, more⟩ := ih steady rest
      exact ⟨stays, timer, by simpa using more⟩

theorem serverCron_spec {around : Nat → Around} (steady : Steady types host.clock.sys)
    (done : host.serverCron proto around = some next) :
    Steady types next.clock.sys ∧ next.timer.m_timers = host.timer.m_timers ∧
      next.clock.ticks = host.clock.ticks + crons host := by
  obtain ⟨stays, timer, ticks⟩ := callTimers_spec (by exact steady) done
  refine ⟨stays, by rw [timer], ticks.trans ?_⟩
  have counted : host.timer.serverCron.2.countP (·.2 = .nodeMgr) = crons host := by
    calc host.timer.serverCron.2.countP (·.2 = .nodeMgr)
      _ = (host.timer.m_timers.zipIdx.map Prod.fst).countP (·.cb = .nodeMgr) := by
          rw [Timer.serverCron, List.countP_map, List.countP_map]
          rfl
      _ = crons host := by rw [List.zipIdx_map_fst, crons]
  exact congrArg _ counted

/-- The register response is the only message that starts the node manager. -/
theorem parseRouter_spec {arrival : Arrival} (steady : Steady types host.clock.sys)
    (done : host.parseRouter proto arrival = some next) :
    Steady types next.clock.sys ∧ next.clock.ticks = host.clock.ticks ∧
      next.timer = if getCmd arrival.heap arrival.msg = proto.CID_ROUTER_CLIENT_REGISTER_RSP ∧
          (proto.parseRegisterServerRsp (payload arrival.msg)).isSome
        then host.timer.addTimer .nodeMgr 1 else host.timer := by
  simp only [Host.parseRouter] at done
  split_ifs at done with response push
  · unfold Host.registRsp at done
    cases parsed : proto.parseRegisterServerRsp (payload arrival.msg) with
    | none =>
      rw [parsed] at done
      cases done
      exact ⟨steady, rfl, by simp⟩
    | some nid =>
      rw [parsed] at done
      obtain ⟨named, stored, rfl⟩ := Option.map_eq_some_iff.mp done
      unfold Host.setId at stored
      split_ifs at stored
      cases stored
      exact ⟨steady, rfl, by simp [response, Host.start]⟩
  · obtain ⟨sys, pushed, rfl⟩ := Option.map_eq_some_iff.mp done
    have action : Core.NodeMgr.step proto.toProto host.clock.sys
        (.srvinfoBroadcast arrival.msg arrival.visits) = some sys := pushed
    exact ⟨steady_step steady action, rfl, by simp [response, Host.withSys]⟩
  · cases done
    exact ⟨steady, rfl, by simp [response]⟩

theorem parse_spec {arrival : Arrival} (steady : Steady types host.clock.sys)
    (done : host.parse proto arrival = some next) :
    Steady types next.clock.sys ∧ next.clock.ticks = host.clock.ticks ∧
      next.timer = host.timer := by
  simp only [Host.parse] at done
  split_ifs at done
  · obtain ⟨sys, answered, rfl⟩ := Option.map_eq_some_iff.mp done
    have action : Core.NodeMgr.step proto.toProto host.clock.sys
        (.authenticationReq arrival.addr arrival.msg arrival.heap) = some sys := answered
    exact ⟨steady_step steady action, rfl, rfl⟩
  · obtain ⟨sys, taken, rfl⟩ := Option.map_eq_some_iff.mp done
    have action : Core.NodeMgr.step proto.toProto host.clock.sys
        (.authenticationRsp arrival.addr arrival.msg arrival.heap) = some sys := taken
    exact ⟨steady_step steady action, rfl, rfl⟩
  · cases done
    exact ⟨steady, rfl, rfl⟩

/-- A message starts the node manager, which is one more timer, or leaves the timers alone. -/
theorem message_spec {arrival : Arrival} (steady : Steady types host.clock.sys)
    (done : host.parseCommonProto proto arrival = some next) :
    Steady types next.clock.sys ∧ next.clock.ticks = host.clock.ticks ∧
      next.timer = if registers proto (.message arrival) ∧ proto.SID_ROUTER ∈ types
        then host.timer.addTimer .nodeMgr 1 else host.timer := by
  simp only [Host.parseCommonProto] at done
  split_ifs at done with other
  · simpa [registers, other] using parse_spec steady done
  · have served : host.clock.sys.findService (getSid arrival.heap arrival.msg) = none ↔
        getSid arrival.heap arrival.msg ∉ types := by
      rw [← Option.isNone_iff_eq_none, findService_isNone, steady.2]
    cases found : host.clock.sys.findService (getSid arrival.heap arrival.msg) with
    | none =>
      rw [found] at done
      cases done
      have absent := served.mp found
      refine ⟨steady, rfl, (if_neg ?_).symm⟩
      rintro ⟨response, listed⟩
      simp only [registers, Bool.and_eq_true, decide_eq_true_eq] at response
      exact absent (response.1.1.2 ▸ listed)
    | some snode =>
      rw [found] at done
      have listed : getSid arrival.heap arrival.msg ∈ types := by
        by_contra absent
        rw [served.mpr absent] at found
        cases found
      have typed : snode.m_sid = getSid arrival.heap arrival.msg := by
        simpa using List.find?_some found
      simp only [Host.parseService, typed] at done
      split_ifs at done with router
      · rw [router] at listed other
        simpa [registers, other, router, listed] using parseRouter_spec steady done
      · cases done
        exact ⟨steady, rfl, by simp [registers, router]⟩

/-- The timers that an event puts into the list. -/
def added (proto : RouterProto) (types : List (BitVec 16)) :
    Core.CommonProto.Event → List (Tm TimerHandler)
  | .addTimer id sec => [⟨.other id, sec⟩]
  | event => if registers proto event ∧ proto.SID_ROUTER ∈ types then [⟨.nodeMgr, 1⟩] else []

theorem addTimer_ne (timer : Timer TimerHandler) : timer.addTimer .nodeMgr 1 ≠ timer := by
  intro same
  simpa [Timer.addTimer] using congrArg (fun timer => timer.m_timers.length) same

/-- One step: a tick calls the timers of the list, and a start appends to the list. -/
theorem step_spec {event : Core.CommonProto.Event} (steady : Steady types host.clock.sys)
    (stepped : step proto host event = some next) :
    Steady types next.clock.sys ∧
      next.timer.m_timers = host.timer.m_timers ++ added proto types event ∧
      next.clock.ticks ≤ host.clock.ticks + crons host ∧
      ((∃ arrival, event = .message arrival) → (next.timer = host.timer ↔
        ¬(registers proto event ∧ proto.SID_ROUTER ∈ types))) := by
  cases event with
  | message arrival =>
    obtain ⟨kept, ticks, timer⟩ := message_spec steady stepped
    refine ⟨kept, ?_, ticks ▸ Nat.le_add_right _ _, fun _ => ?_⟩
    · rw [timer, added]
      · split_ifs
        · rfl
        · exact (List.append_nil _).symm
      · exact nofun
    · rw [timer]
      split_ifs with starts
      · exact iff_of_false (addTimer_ne _) (not_not.mpr starts)
      · exact iff_of_true rfl starts
  | serverCron around =>
    obtain ⟨kept, timer, ticks⟩ := serverCron_spec steady stepped
    exact ⟨kept, by simp [timer, added, registers], ticks.le, nofun⟩
  | addTimer id sec =>
    cases stepped
    exact ⟨steady, rfl, Nat.le_add_right _ _, nofun⟩
  | action action =>
    obtain ⟨sys, done, rfl⟩ := Option.map_eq_some_iff.mp stepped
    exact ⟨steady_step steady done, by simp [added, registers, Host.withSys],
      Nat.le_add_right _ _, nofun⟩

/-- The exact condition of one step. -/
theorem scheduled_iff {event : Core.CommonProto.Event} (steady : Steady types host.clock.sys)
    (once : crons host ≤ 1) (stepped : step proto host event = some next) :
    Scheduled proto host event ↔
      ¬(registers proto event ∧ proto.SID_ROUTER ∈ types ∧ crons host ≠ 0) := by
  obtain ⟨-, -, ticks, timer⟩ := step_spec steady stepped
  simp only [Scheduled, stepped, Option.some.injEq, forall_eq']
  constructor
  · rintro ⟨-, unchanged⟩ ⟨response, router, started⟩
    have message : ∃ arrival, event = .message arrival := by
      cases event with
      | message arrival => exact ⟨arrival, rfl⟩
      | serverCron | addTimer | action => cases response
    exact (timer message).mp (unchanged started message) ⟨response, router⟩
  · intro first
    refine ⟨by omega, fun started message => (timer message).mpr ?_⟩
    rintro ⟨response, router⟩
    exact first ⟨response, router, started⟩

theorem crons_step {event : Core.CommonProto.Event} (steady : Steady types host.clock.sys)
    (stepped : step proto host event = some next) :
    crons next = crons host +
      if registers proto event ∧ proto.SID_ROUTER ∈ types then 1 else 0 := by
  obtain ⟨-, timers, -⟩ := step_spec steady stepped
  rw [crons, timers, List.countP_append, ← crons]
  congr 1
  unfold added
  cases event with
  | addTimer id sec => simp [registers]
  | message | serverCron | action =>
    simp only
    split_ifs <;> simp

end Steps

/-! ### Runs -/

/-- The exact condition for a run: the timers that call `cron` and the responses to come are not
more than one. -/
theorem throughout_scheduled_iff {proto : RouterProto} {types : List (BitVec 16)}
    {host finish : Host} {events : List Core.CommonProto.Event}
    (steady : Steady types host.clock.sys) (router : proto.SID_ROUTER ∈ types)
    (once : crons host ≤ 1) (reached : run (step proto) host events = some finish) :
    Throughout (step proto) (Scheduled proto) host events ↔
      crons host + events.countP (registers proto) ≤ 1 := by
  induction events generalizing host with
  | nil => simpa [Throughout] using once
  | cons event events ih =>
    obtain ⟨next, stepped, rest⟩ := run_cons.mp reached
    have here := scheduled_iff steady once stepped
    have counted := crons_step steady stepped
    have kept := (step_spec steady stepped).1
    simp only [router, true_and, and_true] at here counted
    simp only [Throughout, stepped, Option.some.injEq, forall_eq', here, List.countP_cons]
    cases response : registers proto event with
    | true =>
      simp only [response, if_true, true_and, not_not] at counted ⊢
      constructor
      · rintro ⟨fresh, later⟩
        have := (ih kept (by omega) rest).mp later
        omega
      · intro bound
        exact ⟨by omega, (ih kept (by omega) rest).mpr (by omega)⟩
    | false =>
      simp only [response, Bool.false_eq_true, if_false, false_and, not_false_eq_true, true_and,
        Nat.add_zero] at counted ⊢
      rw [ih kept (by omega) rest, counted]

/-- Without a router no response is handled. -/
theorem throughout_scheduled {proto : RouterProto} {types : List (BitVec 16)}
    {host finish : Host} {events : List Core.CommonProto.Event}
    (steady : Steady types host.clock.sys) (routerless : proto.SID_ROUTER ∉ types)
    (none : crons host = 0) (reached : run (step proto) host events = some finish) :
    Throughout (step proto) (Scheduled proto) host events := by
  induction events generalizing host with
  | nil => exact trivial
  | cons event events ih =>
    obtain ⟨next, stepped, rest⟩ := run_cons.mp reached
    have counted := crons_step steady stepped
    simp only [routerless, and_false, if_false, none] at counted
    refine ⟨(scheduled_iff steady (by omega) stepped).mpr fun both => routerless both.2.1, ?_⟩
    intro after same
    cases stepped.symm.trans same
    exact ih (step_spec steady stepped).1 counted rest

/-- The supervision is scheduled once if and only if at most one register response comes, or the
configuration has no router to handle it. -/
theorem scheduled_once_iff (proto : RouterProto) (types : List (BitVec 16))
    (events : List Core.CommonProto.Event) {finish : Host}
    (reached : run (step proto) (launch types) events = some finish) :
    Throughout (step proto) (Scheduled proto) (launch types) events ↔
      proto.SID_ROUTER ∉ types ∨ events.countP (registers proto) ≤ 1 := by
  have steady : Steady types (launch types).clock.sys := steady_start types
  have none : crons (launch types) = 0 := rfl
  by_cases router : proto.SID_ROUTER ∈ types
  · rw [throughout_scheduled_iff steady router (by omega) reached, none, Nat.zero_add]
    simp only [router, not_true, false_or]
  · exact iff_of_true (throughout_scheduled steady router none reached) (.inl router)

def smallRouter : RouterProto :=
  { smallBeats with
    CID_ROUTER_CLIENT_REGISTER_RSP := 2
    CID_ROUTER_PUSH_SERVER_STATUS := 3
    parseRegisterServerRsp
      | [8, nid] => some (nid.setWidth 32)
      | _ => none }

/-- A register response that gives this node the id 7. -/
def registerRsp : Core.CommonProto.Event :=
  .message ⟨0, (buildMsg ⟨true, fun _ => 0⟩ 1 2 ⟨[8, 7], true, by simp⟩).getD .null,
    ⟨true, fun _ => 0⟩, fun _ => Arming.freshFd 5⟩

def tick : Core.CommonProto.Event :=
  .serverCron fun _ => ⟨fun _ _ => Arming.freshFd 6, fun _ => ⟨true, fun _ => 0⟩⟩

theorem scheduled_once_iff_one_response : ∃ finish,
    run (step smallRouter) (launch [1]) [registerRsp, tick, tick] = some finish ∧
      (Throughout (step smallRouter) (Scheduled smallRouter) (launch [1])
          [registerRsp, tick, tick] ↔
        smallRouter.SID_ROUTER ∉ ([1] : List (BitVec 16)) ∨
          [registerRsp, tick, tick].countP (registers smallRouter) ≤ 1) := by
  have runs : (run (step smallRouter) (launch [1]) [registerRsp, tick, tick]).isSome = true := by
    decide +kernel
  obtain ⟨finish, reached⟩ := Option.isSome_iff_exists.mp runs
  exact ⟨finish, reached, scheduled_once_iff smallRouter [1] [registerRsp, tick, tick] reached⟩

/-- After two responses one tick calls `cron` twice. -/
theorem two_responses_tick_twice : ∃ middle finish,
    run (step smallRouter) (launch [1]) [registerRsp, registerRsp] = some middle ∧
      step smallRouter middle tick = some finish ∧
      finish.clock.ticks = middle.clock.ticks + 2 := by
  have before : (run (step smallRouter) (launch [1]) [registerRsp, registerRsp]).map
      (·.clock.ticks) = some 0 := by decide +kernel
  have after : (run (step smallRouter) (launch [1]) [registerRsp, registerRsp, tick]).map
      (·.clock.ticks) = some 2 := by decide +kernel
  obtain ⟨finish, reached, ticks⟩ := Option.map_eq_some_iff.mp after
  have split : run (step smallRouter) (launch [1]) ([registerRsp, registerRsp] ++ [tick]) =
      some finish := reached
  obtain ⟨middle, begun, rest⟩ := run_append.mp split
  obtain ⟨last, stepped, same⟩ := run_cons.mp rest
  cases same
  rw [begun, Option.map_some, Option.some.injEq] at before
  exact ⟨middle, finish, begun, stepped, by rw [ticks, before]⟩

end SNFrame.System.Ticks
