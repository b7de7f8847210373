import Mathlib.Data.List.Range
import SNFrame.Receive.Session

/-! Whether the loop of `parse` ends. Every branch takes bytes off `buf_len` or leaves the
loop, except the two that ask for a buffer and do not get one. -/

namespace SNFrame.Receive.Termination
open Library.Octet Library.Transition Base.PbBuf Core.Receiving Core.TcpParse
open Assembler Refinement Session

/-- Where the loop is: the pointer `data` and the connection. -/
abbrev Cursor := Int × RecvPkt

/-- The loop guard and one iteration that comes back to it. -/
def iterate (sids : ServiceID) (point : Cursor) (ambient : Ambient) : Option Cursor :=
  if point.2.bufLen < HEAD_LEN then none
  else match parseIter sids ambient point.1 point.2 with
    | .ok (.next data conn _) => some (data, conn)
    | _ => none

/-- The surroundings of the first `count` iterations. -/
def firstOf (ambient : Nat → Ambient) (count : Nat) : List Ambient := (List.range count).map ambient

theorem firstOf_succ (ambient : Nat → Ambient) (count : Nat) :
    firstOf ambient (count + 1) = ambient 0 :: firstOf (fun n => ambient (n + 1)) count := by
  simp only [firstOf, List.range_succ_eq_map, List.map_cons, List.map_map, Function.comp_def,
    Nat.succ_eq_add_one]

/-- The loop ends, without a fault, after some number of iterations. -/
def Ends (sids : ServiceID) (ambient : Nat → Ambient) (point : Cursor) : Prop :=
  ∃ count finish, parseLoop sids count ambient point.1 point.2 [] = .ok (some finish)

/-- The iteration from here leaves the loop or takes bytes off `buf_len`. -/
def Shrinks (sids : ServiceID) (point : Cursor) (ambient : Ambient) : Prop :=
  ∀ next, iterate sids point ambient = some next → next.2.bufLen < point.2.bufLen

/-- The iteration from here calls `bufalloc`: it is at a tag and collects no frame. -/
def Allocates (point : Cursor) : Prop :=
  HEAD_LEN ≤ point.2.bufLen ∧ point.2.lessPktLen = 0 ∧ atTag point.2.buf point.1 = .ok true

/-- Each iteration that calls `bufalloc` gets the buffer. -/
def Supplied (point : Cursor) (ambient : Ambient) : Prop := Allocates point → ambient.malloc = true

/-- Every iteration from here on meets the condition. -/
def EachIteration (sids : ServiceID) (condition : Cursor → Ambient → Prop)
    (ambient : Nat → Ambient) (point : Cursor) : Prop :=
  ∀ count, Throughout (iterate sids) condition point (firstOf ambient count)

theorem EachIteration.tail {sids : ServiceID} {condition : Cursor → Ambient → Prop}
    {ambient : Nat → Ambient} {point next : Cursor}
    (each : EachIteration sids condition ambient point)
    (moved : iterate sids point (ambient 0) = some next) :
    EachIteration sids condition (fun n => ambient (n + 1)) next := by
  intro count
  have longer := each (count + 1)
  rw [firstOf_succ] at longer
  exact longer.2 next moved

theorem EachIteration.head {sids : ServiceID} {condition : Cursor → Ambient → Prop}
    {ambient : Nat → Ambient} {point : Cursor} (each : EachIteration sids condition ambient point) :
    condition point (ambient 0) := by
  have one := each 1
  rw [firstOf_succ] at one
  exact one.1

/-! ### One iteration -/

section Represented
variable {point : Cursor} {state : Assembly} (rep : Represents point.1 point.2 state)
include rep

/-- One iteration of the loop, as the receiver on lists takes it. -/
theorem iterate_represents {sids : ServiceID} {ambient : Ambient} {next : Cursor}
    (moved : iterate sids point ambient = some next) :
    ∃ long later out, step sids ambient state long = .next later out ∧
      Represents next.1 next.2 later := by
  have count := rep.count
  unfold iterate at moved
  split at moved
  · cases moved
  · next guard =>
    have long : HEAD_LEN ≤ state.unread.length := by omega
    obtain ⟨flow, runs, matched⟩ := parseIter_refines rep sids ambient long
    rw [runs] at moved
    generalize taken : step sids ambient state long = move at matched
    cases matched with
    | next rep' =>
      cases moved
      exact ⟨long, _, _, taken, rep'⟩
    | leave rep' => cases moved

theorem allocates_iff :
    Allocates point ↔
      HEAD_LEN ≤ state.unread.length ∧ state.pending = none ∧ tagged state.unread = true := by
  have count := rep.count
  have pkt := rep.pkt
  unfold Allocates
  constructor
  · rintro ⟨guard, idle, here⟩
    have long : HEAD_LEN ≤ state.unread.length := by omega
    rw [atTag_represents rep (le_trans (by decide) long), Except.ok.injEq] at here
    refine ⟨long, ?_, here⟩
    cases started : state.pending with
    | none => rfl
    | some pending =>
      rw [started] at pkt
      have less := pkt.1
      have short := pending.short
      omega
  · rintro ⟨long, idle, here⟩
    rw [idle] at pkt
    refine ⟨by omega, pkt.1, ?_⟩
    rw [atTag_represents rep (le_trans (by decide) long), here]

/-- The iteration makes progress if and only if it gets the buffer that it asks for. -/
theorem shrinks_iff_supplied (sids : ServiceID) (ambient : Ambient) :
    Shrinks sids point ambient ↔ Supplied point ambient := by
  have count := rep.count
  unfold Shrinks Supplied
  rw [allocates_iff rep]
  constructor
  · rintro shrinks ⟨long, idle, here⟩
    by_contra failed
    have starved : Starved ambient state := ⟨idle, here, Bool.eq_false_iff.mpr failed⟩
    obtain ⟨flow, runs, matched⟩ := parseIter_refines rep sids ambient long
    rw [step_starved long starved] at matched
    cases matched with
    | next rep' =>
      have again := shrinks _ (by rw [iterate, if_neg (by omega), runs])
      have same := rep'.count
      simp only at again
      omega
  · intro supplied next moved
    obtain ⟨long, later, out, taken, rep'⟩ := iterate_represents rep moved
    have fed : ¬Starved ambient state := fun starved => by
      have found := supplied ⟨long, starved.1, starved.2.1⟩
      rw [starved.2.2] at found
      cases found
    have shorter := step_shrinks fed taken
    have after := rep'.count
    omega

end Represented

/-! ### The loop -/

/-- As many iterations as there are unread bytes, if each of them makes progress. -/
theorem ends_of_shrinks (sids : ServiceID) (count : Nat) (ambient : Nat → Ambient) (point : Cursor)
    {state : Assembly} (rep : Represents point.1 point.2 state)
    (enough : state.unread.length ≤ count)
    (each : EachIteration sids (Shrinks sids) ambient point) (out : List Dispatch) :
    ∃ finish, parseLoop sids count ambient point.1 point.2 out = .ok (some finish) := by
  induction count generalizing ambient point state out with
  | zero =>
    have guard : point.2.bufLen < HEAD_LEN := by
      have same := rep.count
      simp only [HEAD_LEN]
      omega
    exact ⟨_, by rw [parseLoop, if_pos guard]⟩
  | succ count ih =>
    have same := rep.count
    by_cases guard : point.2.bufLen < HEAD_LEN
    · exact ⟨_, by rw [parseLoop, if_pos guard]⟩
    · obtain ⟨flow, runs, matched⟩ :=
        parseIter_refines rep sids (ambient 0) (show HEAD_LEN ≤ state.unread.length by omega)
      rw [parseLoop, if_neg guard]
      simp only [runs, bind, Except.bind]
      generalize step sids (ambient 0) state _ = move at matched
      cases matched with
      | leave rep' => exact ⟨_, rfl⟩
      | @next data conn later more rep' =>
        have moved : iterate sids point (ambient 0) = some (data, conn) := by
          rw [iterate, if_neg guard, runs]
        have shrinks : conn.bufLen < point.2.bufLen := each.head _ moved
        have after := rep'.count
        exact ih (fun n => ambient (n + 1)) (data, conn) rep' (by omega)
          (each.tail moved) (out ++ more)

/-- In every state of a connection that reads of any bytes lead to, and for any answers of the
allocator: the loop ends with every iteration making progress if and only if every call of
`bufalloc` that it makes gets a buffer. -/
theorem progress_iff_supplied (sids : ServiceID) (reads : List Read) (link : Link)
    (reached : run (serve sids) .fresh reads = some link) (chunk : List Byte) (conn : RecvPkt)
    (stored : recvInto link.conn chunk = .ok conn) (ambient : Nat → Ambient) :
    (Ends sids ambient (0, conn) ∧ EachIteration sids (Shrinks sids) ambient (0, conn)) ↔
      EachIteration sids Supplied ambient (0, conn) := by
  have served : ∀ before read after, (∃ state, Represents 0 before.conn state) →
      serve sids before read = some after → ∃ state, Represents 0 after.conn state := by
    rintro before read after ⟨state, rep⟩ serves
    obtain ⟨last, -, -, rep', -⟩ := serve_spec rep serves
    exact ⟨last, rep'⟩
  obtain ⟨state, rep⟩ : ∃ state, Represents 0 link.conn state :=
    run_invariant (fun link => ∃ state, Represents 0 link.conn state) served
      ⟨.fresh, fresh_represents⟩ reached
  obtain ⟨conn', stored', rep'⟩ := recvInto_represents rep chunk (fits_of_recvInto stored)
  rw [stored] at stored'
  cases stored'
  have iterated : ∀ before ambient after, (∃ state, Represents before.1 before.2 state) →
      Shrinks sids before ambient → iterate sids before ambient = some after →
      ∃ state, Represents after.1 after.2 state := by
    rintro before ambient after ⟨state, rep⟩ - moved
    obtain ⟨-, later, -, -, rep'⟩ := iterate_represents rep moved
    exact ⟨later, rep'⟩
  have same : EachIteration sids (Shrinks sids) ambient (0, conn) ↔
      EachIteration sids Supplied ambient (0, conn) := by
    refine forall_congr' fun count => ?_
    apply throughout_congr (fun point => ∃ state, Represents point.1 point.2 state) iterated
    · rintro point here ⟨state, rep⟩
      exact shrinks_iff_supplied rep sids here
    · exact ⟨_, rep'⟩
  constructor
  · rintro ⟨-, each⟩
    exact same.mp each
  · intro each
    have shrinks := same.mpr each
    obtain ⟨finish, ended⟩ :=
      ends_of_shrinks sids _ ambient (0, conn) rep' le_rfl shrinks []
    exact ⟨⟨_, finish, ended⟩, shrinks⟩

theorem progress_iff_supplied_ten_zeroes :
    ∃ conn, recvInto Link.fresh.conn tenZeroes = .ok conn ∧
      Ends ⟨1, 2, 3, 4⟩ roomy (0, conn) ∧
      EachIteration ⟨1, 2, 3, 4⟩ (Shrinks ⟨1, 2, 3, 4⟩) roomy (0, conn) := by
  obtain ⟨conn, stored, -⟩ := recvInto_represents fresh_represents tenZeroes (by decide)
  refine ⟨conn, stored, ?_⟩
  apply (progress_iff_supplied ⟨1, 2, 3, 4⟩ [] .fresh rfl tenZeroes conn stored roomy).mpr
  intro count
  apply throughout_of_mem
  intro point ambient inside _
  obtain ⟨n, -, rfl⟩ := List.mem_map.mp inside
  rfl

/-- A header that announces no body. -/
def bareHeader : List Byte := [TAG_HEAD_1, TAG_HEAD_2] ++ List.replicate 25 0

/-- The surroundings of a call that gets no memory. -/
def starving (_ : Nat) : Ambient := ⟨⟨false, fun _ => 0⟩, 0⟩

theorem assemble_starving (sids : ServiceID) (count : Nat) :
    assemble sids count starving ⟨bareHeader, none⟩ = none := by
  have long : HEAD_LEN ≤ bareHeader.length := by decide
  have starved : Starved (starving 0) ⟨bareHeader, none⟩ := ⟨rfl, by decide, rfl⟩
  induction count with
  | zero => rw [assemble, dif_pos long]
  | succ count ih =>
    rw [assemble, dif_pos long]
    simp only [step_starved long starved]
    rw [Option.map_eq_none_iff]
    exact ih

/-- A header arrives while no memory can be had: the loop never ends. -/
theorem spins_without_memory :
    ∃ conn, recvInto Link.fresh.conn bareHeader = .ok conn ∧
      ¬Ends ⟨1, 2, 3, 4⟩ starving (0, conn) := by
  obtain ⟨conn, stored, rep⟩ := recvInto_represents fresh_represents bareHeader (by decide)
  refine ⟨conn, stored, ?_⟩
  rintro ⟨count, finish, ended⟩
  obtain ⟨found, loop, ends⟩ := parseLoop_refines ⟨1, 2, 3, 4⟩ count starving rep []
  rw [ended] at loop
  cases loop
  have never : assemble ⟨1, 2, 3, 4⟩ count starving ⟨bareHeader, none⟩ = none :=
    assemble_starving ⟨1, 2, 3, 4⟩ count
  change EndRepresents [] (some finish) (assemble ⟨1, 2, 3, 4⟩ count starving ⟨bareHeader, none⟩)
    at ends
  rw [never] at ends
  cases ends

end SNFrame.Receive.Termination
