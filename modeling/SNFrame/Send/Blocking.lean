import SNFrame.Core.Sender

/-! `Sender::sendBlock` sends the message or says that it did not. The position and the remaining
length always add up to the length of the message, so the kernel reads its bytes once each and
in order, whatever fails in between. -/

namespace SNFrame.Send.Blocking
open Library.Octet Base.PbBuf Core.Receiving Core.Sending Core.Sender

/-- `send` has taken nothing, or has failed with an error that the loop does not wait for. -/
def Breaks (outcome : SendResult) : Prop := outcome = .sent 0 ∨ outcome = .failed .other

/-- What the loop does from the position `pos` with `rest` bytes to go: the kernel takes the next
`count` of them, every call asks for all that is left, and the result tells whether it was all.
Each call gets the next of the kernel's answers, and the loop is left without success only at one
that breaks it. -/
structure Covers (outcomes : List SendResult) (trace : BlockTrace) (pos rest count : Nat) :
    Prop where
  within : count ≤ rest
  accepted : trace.accepted = List.range' pos count
  asks : ∀ call ∈ trace.calls, (pos : Int) ≤ call.offset ∧ 0 < call.length ∧
    call.offset + call.length = (pos + rest : Nat)
  complete : trace.result = some 0 ↔ count = rest
  answers : trace.result.isSome → trace.result = some 0 ∨ trace.result = some (-1)
  answered : trace.result.isSome → ∃ n, trace.calls.map (·.outcome) = (outcomes.take n).map some
  reported : trace.result = some (-1) → ∃ call outcome,
    trace.calls.getLast? = some call ∧ call.outcome = some outcome ∧ Breaks outcome

section Loop
variable {pos rest : Nat} {trace : BlockTrace} {outcomes : List SendResult}

/-- Nothing is left. -/
theorem covers_finished (outcomes : List SendResult) (pos : Nat) :
    Covers outcomes ⟨some (blockResult (0 : Nat)), []⟩ pos 0 0 where
  within := le_rfl
  accepted := rfl
  asks := nofun
  complete := by simp [blockResult]
  answers := fun _ => .inl rfl
  answered := fun _ => ⟨0, rfl⟩
  reported := nofun

/-- The one call asks for all that is left. -/
theorem asks_of_single {outcome : Option SendResult} (some_left : rest ≠ 0) :
    ∀ call ∈ [(⟨pos, rest, outcome⟩ : SendCall)], (pos : Int) ≤ call.offset ∧ 0 < call.length ∧
      call.offset + call.length = (pos + rest : Nat) := by
  intro call inside
  rw [List.mem_singleton.mp inside]
  exact ⟨le_rfl, by simpa using Nat.pos_of_ne_zero some_left, by simp⟩

/-- The call does not return. -/
theorem covers_waiting (outcomes : List SendResult) (pos : Nat) (some_left : rest ≠ 0) :
    Covers outcomes ⟨none, [⟨pos, rest, none⟩]⟩ pos rest 0 where
  within := Nat.zero_le _
  accepted := rfl
  asks := asks_of_single some_left
  complete := by simp [some_left.symm]
  answers := nofun
  answered := nofun
  reported := nofun

/-- The loop is left. -/
theorem covers_broken {outcome : SendResult} (pos : Nat) (some_left : rest ≠ 0)
    (breaks : Breaks outcome) :
    Covers (outcome :: outcomes) ⟨some (blockResult rest), [⟨pos, rest, some outcome⟩]⟩
      pos rest 0 where
  within := Nat.zero_le _
  accepted := by
    rcases breaks with rfl | rfl
    · rfl
    · rfl
  asks := asks_of_single some_left
  complete := by simp [blockResult, some_left, some_left.symm]
  answers := by simp [blockResult, some_left]
  answered := fun _ => ⟨1, rfl⟩
  reported := fun _ => ⟨_, outcome, rfl, rfl, breaks⟩

/-- A call that has accepted `ret` bytes, before the calls for the others. -/
theorem covers_after {count ret : Nat} {outcome : SendResult} (fits : ret ≤ rest)
    (some_left : rest ≠ 0) (covers : Covers outcomes trace (pos + ret) (rest - ret) count)
    (taken : SendCall.taken ⟨pos, rest, some outcome⟩ = List.range' pos ret) :
    Covers (outcome :: outcomes) (.after ⟨pos, rest, some outcome⟩ trace) pos rest
      (ret + count) where
  within := by
    have := covers.within
    omega
  accepted := by
    have later := covers.accepted
    simp only [BlockTrace.accepted] at later
    calc (BlockTrace.after ⟨pos, rest, some outcome⟩ trace).accepted
      _ = List.range' pos ret ++ List.range' (pos + ret) count := by
          rw [BlockTrace.accepted, BlockTrace.after, List.flatMap_cons, taken, later]
      _ = List.range' pos (ret + count) := by rw [List.range'_append_1]
  asks := by
    intro call inside
    rcases List.mem_cons.mp inside with rfl | inside
    · exact asks_of_single some_left _ List.mem_cons_self
    · have asked := covers.asks call inside
      omega
  complete := by
    rw [show (BlockTrace.after ⟨pos, rest, some outcome⟩ trace).result = trace.result from rfl,
      covers.complete]
    omega
  answers := covers.answers
  answered := by
    intro returned
    obtain ⟨n, same⟩ := covers.answered returned
    use n + 1
    rw [BlockTrace.after, List.map_cons, same, List.take_succ_cons, List.map_cons]
  reported := by
    intro failed
    obtain ⟨call, broke, last, got, breaks⟩ := covers.reported failed
    refine ⟨call, broke, ?_, got, breaks⟩
    rw [BlockTrace.after, List.getLast?_cons, last, Option.getD_some]

end Loop

theorem sendLoop_finished (outcomes : List SendResult) (pos : Int) :
    sendLoop outcomes pos 0 = ⟨some (blockResult 0), []⟩ := by
  cases outcomes with
  | nil => rfl
  | cons outcome outcomes => rfl

theorem sendLoop_covers (outcomes : List SendResult) (pos rest : Nat)
    (contract : ∀ call ∈ (sendLoop outcomes pos rest).calls, call.Permitted) :
    ∃ count, Covers outcomes (sendLoop outcomes pos rest) pos rest count := by
  induction outcomes generalizing pos rest with
  | nil =>
    rcases Nat.eq_zero_or_pos rest with rfl | positive
    · exact ⟨0, covers_finished [] pos⟩
    · have some_left : (rest : Int) ≠ 0 := by omega
      rw [sendLoop, if_pos some_left]
      exact ⟨0, covers_waiting [] pos positive.ne'⟩
  | cons outcome outcomes ih =>
    rcases Nat.eq_zero_or_pos rest with rfl | positive
    · have finished := sendLoop_finished (outcome :: outcomes) pos
      exact ⟨0, finished ▸ covers_finished _ pos⟩
    have some_left : (rest : Int) ≠ 0 := by omega
    -- A transient error leaves both counters as they are.
    have again (errno : Errno)
        (contract : ∀ call ∈ (BlockTrace.after ⟨pos, rest, some (.failed errno)⟩
          (sendLoop outcomes pos rest)).calls, call.Permitted) :
        ∃ count, Covers (.failed errno :: outcomes) (.after ⟨pos, rest, some (.failed errno)⟩
          (sendLoop outcomes pos rest)) pos rest count := by
      obtain ⟨count, covers⟩ :=
        ih pos rest fun call inside => contract call (List.mem_cons_of_mem _ inside)
      exact ⟨0 + count, covers_after (Nat.zero_le rest) positive.ne' covers rfl⟩
    match outcome with
    | .failed .EINTR =>
      rw [sendLoop, if_pos some_left] at contract ⊢
      exact again .EINTR contract
    | .failed .EWOULDBLOCK =>
      rw [sendLoop, if_pos some_left] at contract ⊢
      exact again .EWOULDBLOCK contract
    | .failed .EAGAIN =>
      rw [sendLoop, if_pos some_left] at contract ⊢
      exact again .EAGAIN contract
    | .failed .other =>
      rw [sendLoop, if_pos some_left]
      exact ⟨0, covers_broken pos positive.ne' (.inr rfl)⟩
    | .sent 0 =>
      rw [sendLoop, if_pos some_left]
      exact ⟨0, covers_broken pos positive.ne' (.inl rfl)⟩
    | .sent (ret + 1) =>
      rw [sendLoop, if_pos some_left] at contract ⊢
      · have permitted := contract _ List.mem_cons_self
        have fits : ret + 1 ≤ rest := Int.ofNat_le.mp permitted
        have counters : sendLoop outcomes (pos + (ret + 1 : Nat)) (rest - (ret + 1 : Nat)) =
            sendLoop outcomes (pos + (ret + 1) : Nat) (rest - (ret + 1) : Nat) := by
          rw [← Nat.cast_sub fits, ← Nat.cast_add]
        rw [counters] at contract ⊢
        obtain ⟨count, covers⟩ :=
          ih _ _ fun call inside => contract call (List.mem_cons_of_mem _ inside)
        exact ⟨ret + 1 + count, covers_after fits positive.ne' covers rfl⟩
      all_goals exact Nat.succ_ne_zero ret

/-- A blocking send is complete or reported: its calls get the answers of the kernel, one after
the other; what these accept is a beginning of the message, each byte once and in order; every
call asks for all that is left; the result is 0 exactly when the whole message is accepted, and
-1 only after an answer that breaks the loop. -/
theorem sendBlock_complete_or_reported (heap : Heap) (msg : IMString) (outcomes : List SendResult)
    (nonnegative : 0 ≤ msg.mLen) (returns : (sendBlock msg outcomes).result.isSome)
    (contract : ∀ call ∈ (sendBlock msg outcomes).calls, call.Permitted) :
    let trace := sendBlock msg outcomes
    let whole := List.range msg.mLen.toNat
    (∃ n, trace.calls.map (·.outcome) = (outcomes.take n).map some) ∧
      trace.accepted <+: whole ∧
      trace.bytes heap msg <+: whole.map (view heap msg) ∧
      (∀ call ∈ trace.calls, 0 ≤ call.offset ∧ call.offset + call.length = msg.mLen) ∧
      (trace.result = some 0 ∨ trace.result = some (-1)) ∧
      (trace.result = some 0 ↔ trace.accepted = whole) ∧
      (trace.result = some (-1) → ∃ call outcome,
        trace.calls.getLast? = some call ∧ call.outcome = some outcome ∧ Breaks outcome) := by
  intro trace whole
  have length : msg.mLen = (msg.mLen.toNat : Nat) := (Int.toNat_of_nonneg nonnegative).symm
  have same : trace = sendLoop outcomes (0 : Nat) (msg.mLen.toNat : Nat) := by
    rw [← length]
    rfl
  obtain ⟨count, covers⟩ := sendLoop_covers outcomes 0 msg.mLen.toNat (same ▸ contract)
  rw [← same] at covers
  have taken : trace.accepted = List.range count := by
    rw [covers.accepted, List.range_eq_range']
  have prefixed : trace.accepted <+: whole := by
    rw [taken]
    have cut : List.range count = whole.take count := by
      rw [List.take_range, min_eq_left covers.within]
    exact cut ▸ List.take_prefix count whole
  refine ⟨covers.answered returns, prefixed, prefixed.map _, ?_, covers.answers returns, ?_,
    covers.reported⟩
  · intro call inside
    have asked := covers.asks call inside
    omega
  · rw [covers.complete, taken]
    constructor
    · rintro rfl
      rfl
    · intro equal
      simpa [whole] using congrArg List.length equal

/-- A send of three bytes is interrupted, takes two of them, has to wait and takes the third. -/
theorem sendBlock_of_three :
    let msg : IMString := ⟨some [1, 2, 3], 3, 3⟩
    let outcomes : List SendResult := [.failed .EINTR, .sent 2, .failed .EAGAIN, .sent 1]
    (sendBlock msg outcomes).result = some 0 ∧
      (sendBlock msg outcomes).bytes ⟨true, fun _ => 0⟩ msg <+: [1, 2, 3] :=
  ⟨rfl, (sendBlock_complete_or_reported ⟨true, fun _ => 0⟩ ⟨some [1, 2, 3], 3, 3⟩
    [.failed .EINTR, .sent 2, .failed .EAGAIN, .sent 1] (by decide) (by decide)
    (by decide)).2.2.1⟩

end SNFrame.Send.Blocking
