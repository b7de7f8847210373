import SNFrame.Core.NodeMgr
import SNFrame.System.Ownership

/-! The handover of a queue between two connections, and what is sent over the new one. -/

namespace SNFrame.System.Handover
open Library.Table
open Core.NetManager Core.NodeMgr Ownership

section
variable {net : Net} {table : Nat → Option Owned} {addr old : Nat} {new gone : Owned}

/-- The new connection with the queue and the callback of the old one. -/
def heir (new gone : Owned) : Owned where
  conn := { new.conn with outBuffer := gone.conn.outBuffer, cb := gone.conn.cb }
  queue := gone.queue

/-- The net that the handover leaves. -/
def handed (net : Net) (addr old : Nat) (new gone : Owned) : Net where
  conns := update Connection.addr addr
    (fun conn => { conn with outBuffer := gone.conn.outBuffer, cb := gone.conn.cb })
    (remove Connection.addr old net.conns)
  queues := Function.update net.queues new.conn.outBuffer none
  next := net.next

/-- The connections before the old one is closed: it no longer owns the queue. -/
def shared (net : Net) (addr old : Nat) (gone : Owned) : List Connection :=
  update Connection.addr addr (fun conn => { conn with cb := gone.conn.cb })
    (update Connection.addr old (fun conn => { conn with cache := false })
      (update Connection.addr addr (fun conn => { conn with outBuffer := gone.conn.outBuffer })
        net.conns))

theorem shared_find (shown : Shows noStrays net table) (there : table old = some gone)
    (apart : addr ≠ old) : (shared net addr old gone).find? (·.fd = gone.conn.fd) =
      some { gone.conn with cache := false } := by
  obtain ⟨inside, rfl⟩ := shown.mem there
  have distinct : ((shared net addr gone.conn.addr gone).map Connection.fd).Nodup := by
    rw [shared, map_update Connection.fd, map_update Connection.fd, map_update Connection.fd]
    · exact shown.wf.fds
    all_goals exact fun _ => rfl
  have member : { gone.conn with cache := false } ∈ shared net addr gone.conn.addr gone := by
    apply mem_update.mpr
    refine ⟨{ gone.conn with cache := false }, ?_, (if_neg apart.symm).symm⟩
    apply mem_update.mpr
    refine ⟨gone.conn, ?_, (if_pos rfl).symm⟩
    apply mem_update.mpr
    exact ⟨gone.conn, inside, (if_neg apart.symm).symm⟩
  exact find?_of_mem distinct member

theorem shared_remove (net : Net) (addr old : Nat) (gone : Owned) :
    remove Connection.addr old (shared net addr old gone) =
      update Connection.addr addr
        (fun conn => { conn with outBuffer := gone.conn.outBuffer, cb := gone.conn.cb })
        (remove Connection.addr old net.conns) := by
  rw [shared, remove_update, remove_update, update_remove_self, remove_update]
  · simp only [update, List.map_map]
    apply List.map_congr_left
    intro conn _
    simp only [Function.comp_apply]
    split_ifs <;> rfl
  all_goals exact fun _ => rfl

theorem handOver_eq (shown : Shows noStrays net table) (here : table addr = some new)
    (there : table old = some gone) (apart : addr ≠ old) :
    Sys.handOver net addr old = some (handed net addr old new gone) := by
  have found := shared_find shown there apart
  have removed := shared_remove net addr old gone
  obtain ⟨-, rfl⟩ := shown.mem there
  rw [shared] at found removed
  simp only [Sys.handOver, shown.deref there, Net.setCache, shown.deref here, Option.map_some,
    Option.bind_eq_bind, Option.bind_some, Net.closeConnection, Net.findFd, Net.assign,
    Net.deleteQueue, found, Bool.false_eq_true, if_false, removed, handed]

/-- A connection after the handover was there before, and has its own queue or the one handed
over. -/
theorem mem_handed {conn : Connection} (inside : conn ∈ (handed net addr old new gone).conns) :
    ∃ was ∈ net.conns, was.addr ≠ old ∧ conn.addr = was.addr ∧
      (was.addr = addr ∧ conn.outBuffer = gone.conn.outBuffer ∨
        was.addr ≠ addr ∧ conn.outBuffer = was.outBuffer) := by
  obtain ⟨was, stays, rfl⟩ := mem_update.mp inside
  obtain ⟨wasIn, differs⟩ := mem_remove.mp stays
  refine ⟨was, wasIn, differs, ?_⟩
  split_ifs with same
  · exact ⟨rfl, .inl ⟨same, rfl⟩⟩
  · exact ⟨rfl, .inr ⟨same, rfl⟩⟩

theorem handed_wf (shown : Shows noStrays net table) (here : table addr = some new)
    (there : table old = some gone) (apart : addr ≠ old) : Wf (handed net addr old new gone) := by
  obtain ⟨newIn, newAt⟩ := shown.mem here
  obtain ⟨goneIn, goneAt⟩ := shown.mem there
  have wf := shown.wf
  -- the queue handed over is not that of another connection, nor the one deleted
  have ownQueue : ∀ was ∈ net.conns, was.addr ≠ old → was.outBuffer ≠ gone.conn.outBuffer := by
    intro was wasIn differs same
    exact differs ((wf.outBuffers was wasIn _ goneIn same).trans goneAt)
  have ownNew : ∀ was ∈ net.conns, was.addr ≠ addr → was.outBuffer ≠ new.conn.outBuffer := by
    intro was wasIn differs same
    exact differs ((wf.outBuffers was wasIn _ newIn same).trans newAt)
  constructor
  · rw [handed, map_update Connection.addr]
    · exact (map_remove_sublist _ _ _).nodup wf.addrs
    · exact fun _ => rfl
  · rw [handed, map_update Connection.fd]
    · exact (map_remove_sublist _ _ _).nodup wf.fds
    · exact fun _ => rfl
  · intro left leftIn right rightIn same
    obtain ⟨leftWas, leftOld, leftStays, leftAddr, leftQueue⟩ := mem_handed leftIn
    obtain ⟨rightWas, rightOld, rightStays, rightAddr, rightQueue⟩ := mem_handed rightIn
    rw [leftAddr, rightAddr]
    rcases leftQueue with ⟨leftNew, leftQueue⟩ | ⟨leftOther, leftQueue⟩ <;>
      rcases rightQueue with ⟨rightNew, rightQueue⟩ | ⟨rightOther, rightQueue⟩
    · exact leftNew.trans rightNew.symm
    · rw [leftQueue, rightQueue] at same
      exact absurd same.symm (ownQueue rightWas rightOld rightStays)
    · rw [leftQueue, rightQueue] at same
      exact absurd same (ownQueue leftWas leftOld leftStays)
    · rw [leftQueue, rightQueue] at same
      exact wf.outBuffers leftWas leftOld rightWas rightOld same
  · intro conn inside
    obtain ⟨was, wasIn, -, sameAddr, queue⟩ := mem_handed inside
    have small := wf.below was wasIn
    have goneSmall := wf.below _ goneIn
    change conn.addr < net.next ∧ conn.outBuffer < net.next
    rcases queue with ⟨-, queue⟩ | ⟨-, queue⟩ <;> rw [sameAddr, queue]
    · exact ⟨small.1, goneSmall.2⟩
    · exact small
  · intro conn inside
    obtain ⟨was, wasIn, stays, -, queue⟩ := mem_handed inside
    change (Function.update net.queues new.conn.outBuffer none conn.outBuffer).isSome
    rcases queue with ⟨-, queue⟩ | ⟨other, queue⟩ <;> rw [queue]
    · rw [Function.update_of_ne (ownNew _ goneIn (goneAt ▸ apart.symm))]
      exact wf.queued _ goneIn
    · rw [Function.update_of_ne (ownNew was wasIn other)]
      exact wf.queued was wasIn

/-- The new connection is the owner of the queue handed over, and its own queue is deleted. -/
theorem handed_owned (shown : Shows noStrays net table) (here : table addr = some new)
    (there : table old = some gone) (apart : addr ≠ old) {queue : Nat}
    (allocated : ((handed net addr old new gone).queues queue).isSome) :
    HasOwner (handed net addr old new gone) queue := by
  obtain ⟨newIn, newAt⟩ := shown.mem here
  obtain ⟨goneIn, goneAt⟩ := shown.mem there
  have differs : queue ≠ new.conn.outBuffer := by
    rintro rfl
    simp [handed] at allocated
  change (Function.update net.queues new.conn.outBuffer none queue).isSome at allocated
  rw [Function.update_of_ne differs] at allocated
  have newStays : new.conn ∈ remove Connection.addr old net.conns :=
    mem_remove.mpr ⟨newIn, newAt ▸ apart⟩
  obtain ⟨conn, inside, has, deletes⟩ := shown.owned queue allocated id
  by_cases given : conn.addr = old
  · have same := eq_of_key shown.wf.addrs inside goneIn (given.trans goneAt.symm)
    refine ⟨_, mem_update.mpr ⟨new.conn, newStays, rfl⟩, ?_, ?_⟩
    · rw [if_pos newAt, ← has, same]
    · rw [if_pos newAt]
      exact shown.cached here id
  · have other : conn.addr ≠ addr := by
      intro same
      rw [eq_of_key shown.wf.addrs inside newIn (same.trans newAt.symm)] at has
      exact differs has.symm
    refine ⟨conn, mem_update.mpr ⟨conn, mem_remove.mpr ⟨inside, given⟩, ?_⟩, has, deletes⟩
    rw [if_neg other]

/-- The new connection owns the queue of the old one, which is gone. -/
theorem handed_shows (shown : Shows noStrays net table) (here : table addr = some new)
    (there : table old = some gone) (apart : addr ≠ old) :
    Shows noStrays (handed net addr old new gone)
      (Function.update (Function.update table old none) addr (some (heir new gone))) where
  wf := handed_wf shown here there apart
  reads := by
    have moves : ∀ conn : Connection,
        { conn with outBuffer := gone.conn.outBuffer, cb := gone.conn.cb }.addr = conn.addr :=
      fun _ => rfl
    have apartQueue : ∀ {other : Nat} {owned : Owned}, table other = some owned →
        other ≠ addr → owned.conn.outBuffer ≠ new.conn.outBuffer :=
      fun found differs same => differs (shown.eq_of_outBuffer found here same)
    funext other
    by_cases sameNew : other = addr
    · rw [sameNew, Function.update_self]
      apply view_eq_some.mpr
      constructor
      · have found : lookup Connection.addr addr net.conns = some new.conn := shown.deref here
        rw [Net.deref, handed, lookup_update moves, if_pos rfl, lookup_remove, if_neg apart, found]
        rfl
      · change Function.update net.queues new.conn.outBuffer none gone.conn.outBuffer = _
        rw [Function.update_of_ne (apartQueue there apart.symm)]
        exact shown.queues there
    · rw [Function.update_of_ne sameNew, view, Net.deref, handed, lookup_update moves,
        if_neg sameNew, lookup_remove]
      by_cases sameOld : other = old
      · rw [if_pos sameOld, sameOld, Function.update_self, Option.bind_none]
      · rw [if_neg sameOld, Function.update_of_ne sameOld, ← shown.reads, view, Net.deref]
        cases found : lookup Connection.addr other net.conns with
        | none => rfl
        | some conn =>
          obtain ⟨queue, held⟩ := shown.exists_of_deref found
          simp only [Option.bind_some, Function.update_of_ne (apartQueue held sameNew)]
  owned := fun _ allocated _ => handed_owned shown here there apart allocated

end

end SNFrame.System.Handover
