import SNFrame.System.Positions

/-! The calls of the handlers. Each brings the event thread from its position to the next one. -/

namespace SNFrame.System.Callbacks
open Library.Octet Library.Table Base.PbBuf Core.Receiving Core.Sending
open Core.TcpParse Core.NetManager Core.NodeMgr Core.EventThread Ownership Tables Turns Sight
open Registration Positions
open Simulation (withEvent_flag withoutEvent_flag withoutEvent_state withoutEvent_cb)

section Calls
variable {sys : Sys} {view : View} {loops : List Loop} {handler : Handler} {addr place : Nat}
  {conn : Connection}

/-- `Connection::setState` to a state that is not a broken one. -/
theorem setState_sees (sees : Sees sys view) {heap : Heap} {state : ConnState} {after : Sys}
    (calm : ¬Broken state) (done : sys.setState heap addr state = some after) :
    ∃ conn, view.conns addr = some conn ∧
      Sees after (view.setConn addr (some { conn with state := state })) := by
  obtain ⟨conn, here, stored⟩ := sees.setState done
  rw [if_neg calm] at stored
  exact ⟨conn, here, stored⟩

/-- The event thread goes on with the tables as they were. -/
theorem same_onward {call : Option Call} {next : Option Handler} (sees : Sees sys view)
    (stands : Stands view call next loops) : Onward view sys call next loops :=
  ⟨view, sees, stands, released_of_conns rfl le_rfl⟩

theorem done_onward {before : Option Handler} (sees : Sees sys view)
    (stands : Stands view none before loops) (sane : Sane view none none) :
    Onward view sys none none loops :=
  same_onward sees (stands.done sane fun _ _ usable => usable)

theorem next_onward {before : Option Handler} (sees : Sees sys view)
    (stands : Stands view none before loops)
    (sane : Sane view (failing (some handler)) (raw (some handler)))
    (holds : handlerHolds view handler)
    (alone : ∀ addr next, handler = .fail addr next → ∀ other, .parse other ∉ loops) :
    Onward view sys none (some handler) loops :=
  same_onward sees (stands.next sane holds (fun _ _ usable => usable) alone)

/-- `setState` of a connection that fails. The callback tells its node. -/
theorem fail_setState_onward {heap : Heap} {state : ConnState} {after : Sys} (sees : Sees sys view)
    (stands : Stands view none (some (.fail addr (.setState state))) loops)
    (set : sys.setState heap addr state = some after) :
    Onward view after none (some (.fail addr .delFileEvent)) loops := by
  have alone := stands.alone addr (.setState state) rfl
  obtain ⟨broken, plain⟩ := stands.ready _ rfl
  obtain ⟨conn, here, noted⟩ := sees.setState set
  rw [if_pos broken] at noted
  have started : state ≠ .STATE_NONE := by
    rintro rfl
    exact absurd broken (by decide)
  have stored : Sane (view.setConn addr (some { conn with state := state })) (some addr)
      none := by
    apply stands.sane.setConn conn
    · exact nofun
    · exact kept_state (stands.sane.kept addr conn here) (plain conn here) started
    · exact fun _ others => absurd rfl others
    · exact fun _ _ _ _ _ => broken
    · exact fun _ => ⟨here, rfl⟩
    · exact fun place callback => stands.sane.callbacks addr conn place here callback
  have there := Function.update_self addr (some { conn with state := state }) view.conns
  have used : (View.notify (view.setConn addr (some { conn with state := state })) conn.cb
      state).next = view.next := View.notify_next ..
  refine ⟨_, noted, ?_, released_update here (View.notify_conns ..) used.ge rfl⟩
  apply stands.next
  · apply stored.notify
    intro place callback node other old found context was
    have owner := (stored.called addr _ place there callback nofun place node found).mpr rfl
    rw [owner] at context
    cases context
    cases there.symm.trans was
    exact broken
  · intro other was
    rw [View.notify_conns] at was
    cases there.symm.trans was
    exact ⟨broken, plain conn here⟩
  · exact fun other inside => absurd inside (alone other)
  · exact fun _ _ _ => alone

/-- `delFileEvent` of a connection that fails, before it is closed. -/
theorem fail_delFileEvent_onward {conn : Connection} (sees : Sees sys view)
    (stands : Stands view none (some (.fail addr .delFileEvent)) loops)
    (here : view.conns addr = some conn) :
    Onward view { sys with net := sys.net.delFileEvent conn.fd (AE_READABLE ||| AE_WRITABLE) } none
      (some (.fail addr .closeConnection)) loops := by
  have alone := stands.alone addr .delFileEvent rfl
  obtain ⟨broken, plain⟩ := stands.ready _ rfl conn here
  obtain ⟨kept, unregistered⟩ := withoutEvent_both (stands.sane.kept addr conn here) plain
  have removed := sees.withNet
    (delFileEvent_listed sees.net here (AE_READABLE ||| AE_WRITABLE)) (delFileEvent_next ..)
  refine ⟨_, removed, ?_, released_update here rfl le_rfl (withoutEvent_flag ..)⟩
  apply stands.next
  · apply stands.sane.setConn conn
    · exact fun other differs equal => differs (Option.some.inj equal).symm
    · exact kept
    · exact fun _ _ => unregistered
    · intro _ _ _ _ _
      rwa [withoutEvent_state]
    · exact fun _ => ⟨here, withoutEvent_cb ..⟩
    · intro place callback
      rw [withoutEvent_cb] at callback
      exact stands.sane.callbacks addr conn place here callback
  · intro other there
    rcases update_eq_some.mp there with ⟨-, same⟩ | ⟨differs, -⟩
    · cases same
      rwa [withoutEvent_state]
    · exact absurd rfl differs
  · exact fun other inside => absurd inside (alone other)
  · exact fun _ _ _ => alone

theorem failCall_onward {around : Surroundings} {next : Failing} {progress : Progress}
    (sees : Sees sys view) (stands : Stands view none (some (.fail addr next)) loops)
    (done : failCall around sys addr next = some progress) :
    Onward view progress.sys progress.call progress.handler loops := by
  have alone := stands.alone addr next rfl
  cases next with
  | setState state =>
    obtain ⟨after, set, rfl⟩ := Option.map_eq_some_iff.mp done
    exact fail_setState_onward sees stands set
  | delFileEvent =>
    obtain ⟨conn, found, rfl⟩ := Option.map_eq_some_iff.mp done
    exact fail_delFileEvent_onward sees stands (sees.net.of_deref found)
  | closeConnection =>
    obtain ⟨conn, found, rfl⟩ := Option.map_eq_some_iff.mp done
    have here := sees.net.of_deref found
    have broken := stands.ready _ rfl conn here
    have unregistered := stands.sane.quiet addr conn here broken nofun
    dsimp only [Progress.done]
    split_ifs with accepted
    · have closed := sees.withNet (closeConnection_listed sees.net here) (closeConnection_next ..)
      refine ⟨_, closed, ?_, released_erase ?_ rfl le_rfl⟩
      · apply stands.done
        · exact stands.sane.descends (descends_erase _ _)
        · exact fun other inside => absurd inside (alone other)
      · intro old there
        cases here.symm.trans there
        exact unregistered
    · exact done_onward sees stands stands.sane

theorem writeCall_onward {next : Draining} {progress : Progress} (sees : Sees sys view)
    (stands : Stands view none (some (.write addr next)) loops)
    (done : writeCall sys addr next = some progress) :
    Onward view progress.sys progress.call progress.handler loops := by
  cases next with
  | empty =>
    obtain ⟨conn, -, done⟩ := Option.bind_eq_some_iff.mp done
    obtain ⟨drained, -, done⟩ := Option.bind_eq_some_iff.mp done
    cases done
    cases drained
    · exact done_onward sees stands stands.sane
    · exact next_onward sees stands stands.sane trivial nofun
  | delFileEvent =>
    obtain ⟨conn, found, rfl⟩ := Option.map_eq_some_iff.mp done
    have here := sees.net.of_deref found
    have removed := sees.withNet (delFileEvent_listed sees.net here AE_WRITABLE)
      (delFileEvent_next ..)
    have descends := descends_update here (withoutEvent_follows conn)
    refine ⟨_, removed, ?_, released_update here rfl le_rfl (withoutEvent_flag ..)⟩
    exact stands.done (stands.sane.descends descends) fun _ _ usable => usable.descends descends

/-- A send function: what it does under `m_lock` leaves every position of the event thread. -/
theorem sendFirst_sees (sees : Sees sys view) {isTarget : Connection → Bool}
    {arms : ConnState → Bool} {msg : IMString} {sent : Int × Net}
    (safe : ∀ state, arms state = true → state ≠ .STATE_NONE ∧ ¬Broken state)
    (done : sys.net.sendFirst isTarget arms msg = some sent) :
    ∃ conns, Sees { sys with net := sent.2 } { view with conns := conns } ∧
      Descends view.conns conns ∧ Unread view.conns conns ∧
      Released view { view with conns := conns } := by
  obtain ⟨count, listed | ⟨addr, conn, here, armed, listed⟩⟩ := sendFirst_listed sees.net done
  · exact ⟨_, sees.withNet listed count, .refl _, fun _ conn there => ⟨conn, there, rfl⟩,
      released_of_conns rfl le_rfl⟩
  · obtain ⟨started, unbroken⟩ := safe conn.state armed
    refine ⟨_, sees.withNet listed count,
      descends_update here (withEvent_writable_follows started unbroken), ?_,
      released_update here rfl le_rfl (withEvent_flag ..)⟩
    intro other new there
    rcases update_eq_some.mp there with ⟨rfl, same⟩ | ⟨-, was⟩
    · cases same
      exact ⟨conn, here, withEvent_writable_readable conn⟩
    · exact ⟨new, was, rfl⟩

theorem connected_safe (state : ConnState) (connected : decide (state = .STATE_CONNECTED) = true) :
    state ≠ .STATE_NONE ∧ ¬Broken state := by
  cases of_decide_eq_true connected
  decide

theorem connectedOrAuth_safe (state : ConnState) (arms : Net.connectedOrAuth state = true) :
    state ≠ .STATE_NONE ∧ ¬Broken state := by
  cases state <;> revert arms <;> decide

theorem reply_onward {before : Option Handler} {msg : Option IMString} {progress : Progress}
    (sees : Sees sys view) (stands : Stands view none before loops)
    (sane : Sane view none none) (done : reply sys addr msg = some progress) :
    Onward view progress.sys progress.call progress.handler loops := by
  obtain ⟨conn, found, done⟩ := Option.bind_eq_some_iff.mp done
  cases msg with
  | none =>
    cases done
    exact done_onward sees stands sane
  | some msg =>
    obtain ⟨sent, pushed, rfl⟩ := Option.map_eq_some_iff.mp done
    obtain ⟨conns, after, descends, -, released⟩ := sendFirst_sees sees connected_safe pushed
    refine ⟨_, after, ?_, released⟩
    exact stands.done (sane.descends descends) fun _ _ usable => usable.descends descends

/-- A connection that can be confirmed enters STATE_CONNECTED. -/
theorem confirm_sane (sane : Sane view none none) (usable : Usable view addr)
    (here : view.conns addr = some conn) :
    Sane (view.setConn addr (some { conn with state := .STATE_CONNECTED })) none none := by
  obtain ⟨unbroken, plain, -⟩ := usable conn here
  apply sane.enter here plain (by decide) (by decide)
  intro place node found lost context
  exact unbroken (sane.lost place node addr conn found lost context here)

theorem authenticationReq_onward {proto : Proto} {around : Surroundings} {sid : BitVec 16}
    {nid : BitVec 32} {next : Confirming} {progress : Progress} (sees : Sees sys view)
    (stands : Stands view none (some (.authenticationReq addr sid nid next)) loops)
    (done : handlerCall proto around sys (.authenticationReq addr sid nid next) = some progress) :
    Onward view progress.sys progress.call progress.handler loops := by
  cases next with
  | setState =>
    have usable : Usable view addr := stands.ready _ rfl
    obtain ⟨after, set, rfl⟩ := Option.map_eq_some_iff.mp done
    obtain ⟨conn, here, stored⟩ := setState_sees sees (by decide) set
    obtain ⟨-, plain, set⟩ := usable conn here
    refine ⟨_, stored, ?_, released_update here rfl le_rfl rfl⟩
    exact stands.next (confirm_sane stands.sane usable here) trivial
      (fun _ _ => usable_setState plain (by decide) set) nofun
  | sendSock => exact reply_onward sees stands stands.sane done

theorem authenticationRsp_onward {proto : Proto} {around : Surroundings} {progress : Progress}
    (sees : Sees sys view) (stands : Stands view none (some (.authenticationRsp addr)) loops)
    (done : handlerCall proto around sys (.authenticationRsp addr) = some progress) :
    Onward view progress.sys progress.call progress.handler loops := by
  have usable : Usable view addr := stands.ready _ rfl
  obtain ⟨after, set, rfl⟩ := Option.map_eq_some_iff.mp done
  obtain ⟨conn, here, stored⟩ := setState_sees sees (by decide) set
  obtain ⟨-, plain, set⟩ := usable conn here
  refine ⟨_, stored, ?_, released_update here rfl le_rfl rfl⟩
  exact stands.done (confirm_sane stands.sane usable here)
    fun _ _ => usable_setState plain (by decide) set

theorem store_sees (sees : Sees sys view) {f : Connection → Connection} {after : Sys}
    (done : store sys addr f = some after) (addrs : ∀ conn, (f conn).addr = conn.addr)
    (fds : ∀ conn, (f conn).fd = conn.fd) :
    ∃ conn, view.conns addr = some conn ∧ Sees after (view.setConn addr (some (f conn))) := by
  obtain ⟨conn, found, rfl⟩ := Option.map_eq_some_iff.mp done
  have here := sees.net.of_deref found
  exact ⟨conn, here, sees.assign here addrs fds⟩

/-- `setNodeInfo`. -/
theorem setNodeInfo_sees (sees : Sees sys view) {sid : BitVec 16} {nid : BitVec 32} {after : Sys}
    (done : store sys addr (fun conn => { conn with sid := sid, nid := nid }) = some after) :
    ∃ conns, Sees after { view with conns := conns } ∧ Descends view.conns conns ∧
      Released view { view with conns := conns } := by
  obtain ⟨conn, here, stored⟩ := store_sees sees done (fun _ => rfl) (fun _ => rfl)
  exact ⟨_, stored, descends_update here (.of_fields rfl rfl rfl rfl rfl rfl rfl),
    released_update here rfl le_rfl rfl⟩

/-- After `setNodeInfo` a handler can rely on what it could rely on before. -/
theorem setNodeInfo_onward (sees : Sees sys view) {before : Option Handler} {handler : Handler}
    (stands : Stands view none before loops) {sid : BitVec 16} {nid : BitVec 32} {after : Sys}
    (done : store sys addr (fun conn => { conn with sid := sid, nid := nid }) = some after)
    (sane : Sane view (failing (some handler)) (raw (some handler)))
    (ready : handlerHolds view handler)
    (alone : ∀ addr next, handler = .fail addr next → ∀ other, .parse other ∉ loops) :
    Onward view after none (some handler) loops := by
  obtain ⟨conns, stores, descends, released⟩ := setNodeInfo_sees sees done
  refine ⟨_, stores, ?_, released⟩
  exact stands.next (sane.descends descends) (handlerHolds_descends ready descends)
    (fun _ _ usable => usable.descends descends) alone

/-- The copy of an address changes nothing here. -/
theorem setAddrs_onward (sees : Sees sys view) {before : Option Handler} {handler : Handler}
    (stands : Stands view none before loops) {ip : List Byte} {progress : Progress}
    (done : setAddrs sys addr ip handler = some progress)
    (sane : Sane view (failing (some handler)) (raw (some handler)))
    (ready : handlerHolds view handler)
    (alone : ∀ addr next, handler = .fail addr next → ∀ other, .parse other ∉ loops) :
    Onward view progress.sys progress.call progress.handler loops := by
  obtain ⟨-, rfl⟩ := setAddrs_eq done
  exact ⟨view, sees, stands.next sane ready (fun _ _ usable => usable) alone,
    released_of_conns rfl le_rfl⟩

theorem request_onward {proto : Proto} {heap : Heap} {sid : BitVec 16} {nid : BitVec 32}
    {next : Option Handler} {progress : Progress} (sees : Sees sys view)
    (stands : Stands view none next loops)
    (done : request proto heap sys addr sid nid next = some progress) :
    Onward view progress.sys progress.call progress.handler loops := by
  obtain ⟨conn, -, rfl⟩ := Option.map_eq_some_iff.mp done
  have logged : Sees (sys.requestAuthentication proto heap conn.fd sid nid) view := by
    unfold Sys.requestAuthentication
    split
    · exact sees
    · exact sees.log _
  refine ⟨view, logged, ⟨stands.sane, ?_, stands.ready, stands.usable, stands.alone⟩,
    released_of_conns rfl le_rfl⟩
  intro fd mask pending
  obtain ⟨msg, -, same⟩ := Option.map_eq_some_iff.mp pending
  cases same

/-- `setCache`, and the old connection no longer deletes the queue. -/
theorem setCache_sees (sees : Sees sys view) {old cache : Nat} {net : Net}
    (there : view.conns old = some conn) (done : sys.net.setCache addr cache = some net) :
    ∃ conns, Sees { sys with net := net.assign old fun conn => { conn with cache := false } }
        { view with conns := conns } ∧
      Descends view.conns conns ∧ Released view { view with conns := conns } := by
  obtain ⟨new, found, rfl⟩ := Option.map_eq_some_iff.mp done
  have here := sees.net.of_deref found
  have dropped : Listed (sys.net.deleteQueue new.outBuffer) view.conns :=
    sees.net.of_conns rfl rfl
  have stored := assign_listed dropped here (f := fun conn => { conn with outBuffer := cache })
    (fun _ => rfl) (fun _ => rfl)
  by_cases same : old = addr
  · subst same
    have kept := assign_listed stored (Function.update_self ..)
      (f := fun conn => { conn with cache := false }) (fun _ => rfl) (fun _ => rfl)
    rw [Function.update_idem] at kept
    exact ⟨_, sees.withNet kept rfl, descends_update here (.of_fields rfl rfl rfl rfl rfl rfl rfl),
      released_update here rfl le_rfl rfl⟩
  · have still := (Function.update_of_ne same (some { new with outBuffer := cache })
      view.conns).trans there
    have kept := assign_listed stored still
      (f := fun conn => { conn with cache := false }) (fun _ => rfl) (fun _ => rfl)
    have shared : Follows new { new with outBuffer := cache } :=
      .of_fields rfl rfl rfl rfl rfl rfl rfl
    have released : Follows conn { conn with cache := false } :=
      .of_fields rfl rfl rfl rfl rfl rfl rfl
    have descends := (descends_update here shared).trans (descends_update still released)
    refine ⟨_, sees.withNet kept rfl, descends, le_rfl, ?_, ?_⟩
    · intro other conn _ after
      obtain ⟨before, was, follows⟩ := descends other conn after
      exact ⟨before, was, follows.flag⟩
    · intro other conn before gone
      rw [eq_none_of_update (eq_none_of_update gone)] at before
      cases before

/-- The new connection becomes the context of its node, which has no other. -/
theorem attach_sane (new : New view addr (some place)) (sane : Sane view none (some addr))
    (vacant : Vacant view place) {f : Node → Node}
    (context : ∀ node, (f node).m_context = some addr)
    (waits : ∀ node, (f node).m_state = .NODE_AUTH) :
    Sane (view.assignNode place f) none none := by
  apply sane.attach
  · exact context
  · intro node
    rw [waits]
    decide
  · exact new.unclaimed
  · exact new.below
  · exact fun conn here => (new.conn conn here).2
  · exact vacant

/-- The new connection takes over the callback of the old one. -/
theorem setCb_onward {sid : BitVec 16} {node : Node} {old : Nat} {oldConn : Connection}
    {after : Sys} (sees : Sees sys view) (found : view.nodes node.addr = some node)
    (stands : Stands view none (some (.reconnect sid node.addr addr .setCb)) loops)
    (context : node.m_context = some old) (there : sys.net.deref old = some oldConn)
    (stored : store sys addr (fun conn => { conn with cb := oldConn.cb }) = some after) :
    Onward view after none (some (.reconnect sid node.addr addr .close)) loops := by
  have sane := stands.sane
  obtain ⟨new, lost⟩ := stands.ready _ rfl
  have thereOld := sees.net.of_deref there
  obtain ⟨conn, here, stores⟩ := store_sees sees stored (fun _ => rfl) (fun _ => rfl)
  have other : old ≠ addr := by
    rintro rfl
    exact new.unclaimed node.addr node found context
  have owner : oldConn.cb = none ∨ oldConn.cb = some node.addr := by
    cases callback : oldConn.cb with
    | none => exact .inl rfl
    | some place =>
      have own := (sane.called old oldConn place thereOld callback
        (fun same => other (Option.some.inj same).symm) node.addr node found).mp context
      exact .inr (congrArg some own.symm)
  have below := fun place callback => sane.callbacks old oldConn place thereOld callback
  obtain ⟨sane, new, usable⟩ := new.setCb sane here oldConn.cb owner below
  refine ⟨_, stores, ?_, released_update here rfl le_rfl rfl⟩
  exact stands.next sane ⟨new, lost⟩ (fun other _ => usable other) nofun

/-- The old connection is closed. -/
theorem closeOld_onward {sid : BitVec 16} {node : Node} {old : Nat} {oldConn : Connection}
    (sees : Sees sys view) (found : view.nodes node.addr = some node)
    (stands : Stands view none (some (.reconnect sid node.addr addr .close)) loops)
    (context : node.m_context = some old) (there : sys.net.deref old = some oldConn) :
    Onward view { sys with net := sys.net.closeConnection oldConn.fd } none
      (some (.reconnect sid node.addr addr .setNodeInfo)) loops := by
  have sane := stands.sane
  obtain ⟨new, lost⟩ := stands.ready _ rfl
  have thereOld := sees.net.of_deref there
  have broken := sane.lost node.addr node old oldConn found (lost node found) context thereOld
  have unregistered := sane.quiet old oldConn thereOld broken nofun
  have descends := descends_erase view.conns old
  have closed := sees.withNet (closeConnection_listed sees.net thereOld)
    (closeConnection_next ..)
  have vacant : Vacant (view.setConn old none) node.addr := by
    intro other another here attached
    cases found.symm.trans here
    cases context.symm.trans attached
    exact Function.update_self ..
  refine ⟨_, closed, ?_, released_erase ?_ rfl le_rfl⟩
  · exact stands.next (sane.descends descends) ⟨new.descends descends, vacant⟩
      (fun _ _ usable => usable.descends descends) nofun
  · intro conn here
    cases thereOld.symm.trans here
    exact unregistered

theorem reconnectCall_onward {proto : Proto} {around : Surroundings} {sid : BitVec 16} {node : Node}
    {next : Reconnecting} {progress : Progress} (sees : Sees sys view)
    (found : view.nodes node.addr = some node)
    (stands : Stands view none (some (.reconnect sid node.addr addr next)) loops)
    (done : reconnectCall proto around sys sid node addr next node.m_context = some progress) :
    Onward view progress.sys progress.call progress.handler loops := by
  have ready := stands.ready _ rfl
  have sane := stands.sane
  -- without an old connection the branch goes on with the new one
  have skip : node.m_context = none → New view addr (some node.addr) →
      Sane view none (some addr) →
      Onward view sys none (some (.reconnect sid node.addr addr .setNodeInfo)) loops := by
    intro context new sane
    exact next_onward sees stands sane ⟨new, vacant_of_none found context⟩ nofun
  cases next with
  | request =>
    apply request_onward sees _ done
    exact stands.next sane ready (fun _ _ usable => usable) nofun
  | setCache =>
    obtain ⟨new, lost⟩ := ready
    cases context : node.m_context with
    | none =>
      rw [context] at done
      cases done
      exact skip context new sane
    | some old =>
      rw [context] at done
      obtain ⟨oldConn, found, done⟩ := Option.bind_eq_some_iff.mp done
      obtain ⟨net, set, done⟩ := Option.bind_eq_some_iff.mp done
      cases done
      obtain ⟨conns, after, descends, released⟩ :=
        setCache_sees sees (sees.net.of_deref found) set
      refine ⟨_, after, ?_, released⟩
      exact stands.next (sane.descends descends) ⟨new.descends descends, lost⟩
        (fun _ _ usable => usable.descends descends) nofun
  | setCb =>
    obtain ⟨new, lost⟩ := ready
    cases context : node.m_context with
    | none =>
      rw [context] at done
      cases done
      exact skip context new sane
    | some old =>
      rw [context] at done
      obtain ⟨oldConn, there, done⟩ := Option.bind_eq_some_iff.mp done
      obtain ⟨after, stored, done⟩ := Option.bind_eq_some_iff.mp done
      cases done
      exact setCb_onward sees found stands context there stored
  | close =>
    obtain ⟨new, lost⟩ := ready
    cases context : node.m_context with
    | none =>
      rw [context] at done
      cases done
      exact skip context new sane
    | some old =>
      rw [context] at done
      obtain ⟨oldConn, there, rfl⟩ := Option.map_eq_some_iff.mp done
      exact closeOld_onward sees found stands context there
  | setNodeInfo =>
    obtain ⟨after, stored, rfl⟩ := Option.map_eq_some_iff.mp done
    exact setNodeInfo_onward sees stands stored sane ready nofun
  | setState =>
    obtain ⟨new, vacant⟩ := ready
    obtain ⟨after, set, rfl⟩ := Option.map_eq_some_iff.mp done
    obtain ⟨conn, here, stored⟩ := setState_sees sees (by decide) set
    obtain ⟨sane, new, usable⟩ := new.enter sane here .STATE_AUTH (by decide) (by decide)
    refine ⟨_, stored, ?_, released_update here rfl le_rfl rfl⟩
    exact stands.next sane ⟨new, vacant.setConn here _⟩ (fun other _ => usable other) nofun
  | attach =>
    obtain ⟨new, vacant⟩ := ready
    cases done
    have attached := sees.assignNode node.addr
      (f := fun node => { node.setState .NODE_AUTH with m_context := some addr }) fun _ => rfl
    have owned := attach_sane new sane vacant (f := fun node =>
      { node.setState .NODE_AUTH with m_context := some addr }) (fun _ => rfl) fun _ => rfl
    exact ⟨_, attached, stands.done owned fun _ _ usable => usable, released_of_conns rfl le_rfl⟩

theorem assignNode_added (view : View) (node : Node) (f : Node → Node) :
    View.assignNode { view.setNode view.nextNode (some node) with nextNode := view.nextNode + 1 }
        view.nextNode f =
      { view.setNode view.nextNode (some (f node)) with nextNode := view.nextNode + 1 } := by
  simp [View.assignNode, View.setNode]

theorem registCall_onward {proto : Proto} {around : Surroundings} {next : Registering}
    {progress : Progress} (sees : Sees sys view)
    (stands : Stands view none (some (.registReq addr next)) loops)
    (done : registCall proto around sys addr next = some progress) :
    Onward view progress.sys progress.call progress.handler loops := by
  have ready := stands.ready _ rfl
  have sane := stands.sane
  cases next with
  | setNodeInfo =>
    obtain ⟨after, stored, rfl⟩ := Option.map_eq_some_iff.mp done
    exact setNodeInfo_onward sees stands stored sane ready nofun
  | setAddrs => exact setAddrs_onward sees stands done sane ready nofun
  | setState =>
    have new : New view addr none := ready
    obtain ⟨after, set, rfl⟩ := Option.map_eq_some_iff.mp done
    obtain ⟨conn, here, stored⟩ := setState_sees sees (by decide) set
    obtain ⟨sane, new, usable⟩ :=
      new.enter sane here .STATE_CONNECTED (by decide) (by decide)
    refine ⟨_, stored, ?_, released_update here rfl le_rfl rfl⟩
    exact stands.next sane new (fun other _ => usable other) nofun
  | addNode =>
    have new : New view addr none := ready
    obtain ⟨⟨after, node⟩, added, done⟩ := Option.bind_eq_some_iff.mp done
    obtain ⟨ip, -, done⟩ := Option.bind_eq_some_iff.mp done
    cases done
    obtain ⟨rfl, listed⟩ := sees.addNode added
    have attached := listed.assignNode view.nextNode
      (f := fun node => { { node.setAddrs ip with m_context := some addr }.setState .NODE_ABLE with
        m_persist := false }) fun _ => rfl
    rw [assignNode_added] at attached
    refine ⟨_, attached, ?_, released_of_conns rfl le_rfl⟩
    apply stands.next
    · apply sane.addNode (by decide : ¬Lost .NODE_ABLE)
      intro other same
      cases same
      exact ⟨new.below, fun conn here => (new.conn conn here).2.elim id id⟩
    · trivial
    · exact fun _ _ usable => usable
    · exact nofun
  | sendSock => exact reply_onward sees stands sane done

theorem addServerCall_onward {proto : Proto} {around : Surroundings} {type : BitVec 16}
    {server : ServerStatus} {next : Announcing} {progress : Progress} (sees : Sees sys view)
    (stands : Stands view none (some (.addServer type server addr next)) loops)
    (done : addServerCall proto around sys type server addr next = some progress) :
    Onward view progress.sys progress.call progress.handler loops := by
  have ready := stands.ready _ rfl
  have sane := stands.sane
  cases next with
  | addNode =>
    have new : New view addr none := ready
    simp only [addServerCall] at done
    split at done
    · cases done
      have unowned := sane.finish fun conn here => (new.conn conn here).2.elim id id
      exact done_onward sees stands unowned
    · next after node added =>
      cases done
      obtain ⟨rfl, listed⟩ := sees.addNode added
      refine ⟨_, listed, ?_, released_of_conns rfl le_rfl⟩
      apply stands.next
      · exact sane.addNode (by decide : ¬Lost .NODE_UNABLE) nofun
      · exact new.announced type server.node_id
      · exact fun _ _ usable => usable
      · exact nofun
  | setNodeInfo node =>
    obtain ⟨after, stored, rfl⟩ := Option.map_eq_some_iff.mp done
    exact setNodeInfo_onward sees stands stored sane ready nofun
  | setAddrs node => exact setAddrs_onward sees stands done sane ready nofun
  | setState node =>
    obtain ⟨new, vacant, below⟩ := ready
    obtain ⟨after, set, rfl⟩ := Option.map_eq_some_iff.mp done
    obtain ⟨conn, here, stored⟩ := setState_sees sees (by decide) set
    obtain ⟨sane, new, usable⟩ :=
      new.enter sane here .STATE_AUTH (by decide) (by decide)
    refine ⟨_, stored, ?_, released_update here rfl le_rfl rfl⟩
    exact stands.next sane ⟨new, vacant.setConn here _, below⟩ (fun other _ => usable other) nofun
  | setCb node =>
    obtain ⟨new, vacant, below⟩ := ready
    obtain ⟨after, stored, rfl⟩ := Option.map_eq_some_iff.mp done
    obtain ⟨conn, here, stores⟩ := store_sees sees stored (fun _ => rfl) (fun _ => rfl)
    obtain ⟨sane, new, usable⟩ := new.setCb sane here (some node) (.inr rfl)
      fun place same => Option.some.inj same ▸ below
    refine ⟨_, stores, ?_, released_update here rfl le_rfl rfl⟩
    exact stands.next sane ⟨new, vacant.setConn here _, below⟩ (fun other _ => usable other) nofun
  | attach node =>
    obtain ⟨new, vacant, below⟩ := ready
    obtain ⟨ip, -, rfl⟩ := Option.map_eq_some_iff.mp done
    have attached := sees.assignNode node (f := fun node =>
      { (node.setAddrs ip).setState .NODE_AUTH with m_context := some addr }) fun _ => rfl
    have owned := attach_sane new sane vacant (f := fun node =>
      { (node.setAddrs ip).setState .NODE_AUTH with m_context := some addr }) (fun _ => rfl)
        fun _ => rfl
    refine ⟨_, attached, ?_, released_of_conns rfl le_rfl⟩
    exact stands.next owned trivial (fun _ _ usable => usable) nofun
  | request =>
    apply request_onward sees _ done
    exact stands.done sane fun _ _ usable => usable

theorem giveUp_onward {proto : Proto} {around : Surroundings} {sid : BitVec 16} {old : Option Nat}
    {progress : Progress} (sees : Sees sys view)
    (stands : Stands view none (some (.giveUp sid old)) loops)
    (done : handlerCall proto around sys (.giveUp sid old) = some progress) :
    Onward view progress.sys progress.call progress.handler loops := by
  have broken := stands.ready _ rfl
  have sane := stands.sane
  obtain ⟨closed, closes, rfl⟩ := Option.map_eq_some_iff.mp done
  have after : ∃ conns, Sees closed { view with conns := conns } ∧
      Descends view.conns conns ∧ Released view { view with conns := conns } := by
    cases old with
    | none =>
      cases closes
      exact ⟨_, sees, .refl _, released_of_conns rfl le_rfl⟩
    | some old =>
      obtain ⟨conn, found, rfl⟩ := Option.map_eq_some_iff.mp closes
      have here := sees.net.of_deref found
      refine ⟨_, sees.withNet (closeConnection_listed sees.net here) (closeConnection_next ..),
        descends_erase _ _, released_erase ?_ rfl le_rfl⟩
      intro other there
      exact sane.quiet old other there (broken old other rfl there) nofun
  obtain ⟨conns, sees, descends, released⟩ := after
  have kept : Sane { view with conns := conns } none none := sane.descends descends
  split_ifs
  · refine ⟨_, sees, ?_, released⟩
    exact stands.next kept trivial (fun _ _ usable => usable.descends descends) nofun
  · exact ⟨_, sees, stands.done kept fun _ _ usable => usable.descends descends, released⟩

theorem connect_onward {proto : Proto} {around : Surroundings} {tries : Nat} {progress : Progress}
    (sees : Sees sys view) (stands : Stands view none (some (.connect tries)) loops)
    (done : handlerCall proto around sys (.connect tries) = some progress) :
    Onward view progress.sys progress.call progress.handler loops := by
  have sane := stands.sane
  cases tries with
  | zero =>
    cases done
    exact done_onward sees stands sane
  | succ tries =>
    obtain ⟨⟨net, new⟩, opens, done⟩ := Option.bind_eq_some_iff.mp done
    rcases sees.opened (f := client) (fun _ => rfl) (fun _ => rfl) opens with
      ⟨rfl, rfl⟩ | ⟨rfl, after⟩
    · cases done
      exact next_onward sees stands sane trivial nofun
    · cases done
      have blank := client_blank view.next view.next around.fd
      refine ⟨_, after, ?_, created_released ..⟩
      apply stands.open blank nofun after
      · exact blank.created_sane sane
      · intro next same
        cases same
        exact blank.created_new sane none rfl
      · exact nofun

theorem handlerCall_onward {proto : Proto} {around : Surroundings} {progress : Progress}
    (sees : Sees sys view) (stands : Stands view none (some handler) loops)
    (done : handlerCall proto around sys handler = some progress) :
    Onward view progress.sys progress.call progress.handler loops := by
  cases handler with
  | fail addr next => exact failCall_onward sees stands done
  | write addr next => exact writeCall_onward sees stands done
  | authenticationReq addr sid nid next => exact authenticationReq_onward sees stands done
  | authenticationRsp addr => exact authenticationRsp_onward sees stands done
  | reconnect sid place addr next =>
    obtain ⟨node, found, called⟩ := Option.bind_eq_some_iff.mp done
    rw [sees.nodes.nodes] at found
    obtain ⟨-, rfl⟩ := sees.nodes.mem_of_node found
    exact reconnectCall_onward sees found stands called
  | giveUp sid old => exact giveUp_onward sees stands done
  | init =>
    simp only [handlerCall, Option.some.injEq] at done
    subst done
    split_ifs
    · exact next_onward sees stands stands.sane trivial nofun
    · exact done_onward sees stands stands.sane
  | connect tries => exact connect_onward sees stands done
  | registReq addr next => exact registCall_onward sees stands done
  | addServer type nid addr next => exact addServerCall_onward sees stands done

end Calls

end SNFrame.System.Callbacks
