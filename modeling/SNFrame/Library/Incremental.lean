import Mathlib.Data.List.Basic

/-! Decoders that are fed a stream piece by piece. One step takes bytes off the front of those in
hand, or has to wait for more, or fails for good. A decoder is stable when a step that it has
taken on some bytes it also takes on more of them; what a stable decoder makes of a stream does
not depend on the pieces. -/

namespace SNFrame.Library.Incremental

variable {State Byte Out Failure : Type*}

inductive Progress (State Out Failure : Type*) where
  | starved
  | next (state : State) (taken : Nat) (out : Option Out)
  | failed (failure : Failure)

/-- Where a decoder stands: it waits with some bytes in hand, or it has failed. -/
inductive Stand (State Byte Failure : Type*) where
  | waiting (state : State) (bytes : List Byte)
  | failed (failure : Failure)

variable (step : State → List Byte → Progress State Out Failure)

structure Stable : Prop where
  taken : ∀ {state bytes next count out}, step state bytes = .next next count out →
    0 < count ∧ count ≤ bytes.length
  next : ∀ {state bytes next count out} more, step state bytes = .next next count out →
    step state (bytes ++ more) = .next next count out
  failed : ∀ {state bytes failure} more, step state bytes = .failed failure →
    step state (bytes ++ more) = .failed failure

/-- Some steps of the decoder, with what they put out. -/
inductive Steps : State → List Byte → List Out → State → List Byte → Prop where
  | refl (state : State) (bytes : List Byte) : Steps state bytes [] state bytes
  | head {state next last : State} {bytes rest : List Byte} {count : Nat} {out : Option Out}
      {outs : List Out} (first : step state bytes = .next next count out)
      (later : Steps next (bytes.drop count) outs last rest) :
      Steps state bytes (out.toList ++ outs) last rest

/-- The steps up to the point where the decoder waits or fails. -/
inductive Decodes : State → List Byte → List Out → Stand State Byte Failure → Prop where
  | starved {state : State} {bytes : List Byte} (waits : step state bytes = .starved) :
      Decodes state bytes [] (.waiting state bytes)
  | failed {state : State} {bytes : List Byte} {failure : Failure}
      (fails : step state bytes = .failed failure) : Decodes state bytes [] (.failed failure)
  | next {state next : State} {bytes : List Byte} {count : Nat} {out : Option Out}
      {outs : List Out} {stand : Stand State Byte Failure}
      (first : step state bytes = .next next count out)
      (later : Decodes next (bytes.drop count) outs stand) :
      Decodes state bytes (out.toList ++ outs) stand

variable {step}

namespace Steps

theorem trans {state middle last : State} {bytes between rest : List Byte} {outs more : List Out}
    (first : Steps step state bytes outs middle between)
    (second : Steps step middle between more last rest) :
    Steps step state bytes (outs ++ more) last rest := by
  induction first with
  | refl => exact second
  | head stepped _ ih =>
    rw [List.append_assoc]
    exact .head stepped (ih second)

theorem single {state next : State} {bytes : List Byte} {count : Nat} {out : Option Out}
    (stepped : step state bytes = .next next count out) :
    Steps step state bytes out.toList next (bytes.drop count) := by
  have whole := Steps.head stepped (.refl next (bytes.drop count))
  rwa [List.append_nil] at whole

/-- Bytes that arrive later change nothing for the steps that have been taken. -/
theorem append (stable : Stable step) {state last : State} {bytes rest : List Byte}
    {outs : List Out} (steps : Steps step state bytes outs last rest) (more : List Byte) :
    Steps step state (bytes ++ more) outs last (rest ++ more) := by
  induction steps with
  | refl => exact .refl _ _
  | head stepped _ ih =>
    refine .head (stable.next more stepped) ?_
    rw [List.drop_append_of_le_length (stable.taken stepped).2]
    exact ih

/-- The bytes in hand after some steps are the last ones of those before. -/
theorem suffix {state last : State} {bytes rest : List Byte} {outs : List Out}
    (steps : Steps step state bytes outs last rest) : rest <:+ bytes := by
  induction steps with
  | refl => exact List.suffix_refl _
  | head _ _ ih => exact ih.trans (List.drop_suffix ..)

/-- Of two series of steps on the same bytes one goes on where the other ends. -/
theorem compare {state first second : State} {bytes rest other : List Byte} {outs more : List Out}
    (one : Steps step state bytes outs first rest)
    (two : Steps step state bytes more second other) :
    (∃ later, Steps step first rest later second other ∧ more = outs ++ later) ∨
      ∃ later, Steps step second other later first rest ∧ outs = more ++ later := by
  induction one generalizing more with
  | refl => exact .inl ⟨more, two, rfl⟩
  | head stepped later ih =>
    cases two with
    | refl => exact .inr ⟨_, .head stepped later, rfl⟩
    | head again rest =>
      cases stepped.symm.trans again
      cases ih rest with
      | inl here =>
        obtain ⟨after, steps, same⟩ := here
        exact .inl ⟨after, steps, by rw [same, List.append_assoc]⟩
      | inr there =>
        obtain ⟨after, steps, same⟩ := there
        exact .inr ⟨after, steps, by rw [same, List.append_assoc]⟩

/-- A decoding goes on from wherever some steps have led. -/
theorem decodes {state last : State} {bytes rest : List Byte} {outs more : List Out}
    {stand : Stand State Byte Failure} (steps : Steps step state bytes outs last rest)
    (decoded : Decodes step last rest more stand) :
    Decodes step state bytes (outs ++ more) stand := by
  induction steps with
  | refl => exact decoded
  | head stepped _ ih =>
    rw [List.append_assoc]
    exact .next stepped (ih decoded)

end Steps

namespace Decodes

theorem deterministic {state : State} {bytes : List Byte} {outs other : List Out}
    {stand end' : Stand State Byte Failure} (first : Decodes step state bytes outs stand)
    (second : Decodes step state bytes other end') : outs = other ∧ stand = end' := by
  induction first generalizing other with
  | starved waits =>
    cases second with
    | starved => exact ⟨rfl, rfl⟩
    | failed fails => cases waits.symm.trans fails
    | next stepped => cases waits.symm.trans stepped
  | failed fails =>
    cases second with
    | starved waits => cases waits.symm.trans fails
    | failed again =>
      cases fails.symm.trans again
      exact ⟨rfl, rfl⟩
    | next stepped => cases fails.symm.trans stepped
  | next stepped _ ih =>
    cases second with
    | starved waits => cases waits.symm.trans stepped
    | failed fails => cases fails.symm.trans stepped
    | next again later =>
      cases stepped.symm.trans again
      obtain ⟨same, ends⟩ := ih later
      exact ⟨by rw [same], ends⟩

/-- Every step takes a byte, so that every stream is decoded. -/
theorem exists_of_stable (stable : Stable step) (state : State) (bytes : List Byte) :
    ∃ outs stand, Decodes step state bytes outs stand := by
  induction size : bytes.length using Nat.strongRecOn generalizing state bytes with
  | ind size' ih =>
    cases stepped : step state bytes with
    | starved => exact ⟨[], _, .starved stepped⟩
    | failed failure => exact ⟨[], _, .failed stepped⟩
    | next next count out =>
      obtain ⟨some_byte, inside⟩ := stable.taken stepped
      have shrinks : (bytes.drop count).length < size' := by
        rw [List.length_drop]
        omega
      obtain ⟨outs, stand, later⟩ := ih _ shrinks next (bytes.drop count) rfl
      exact ⟨_, _, .next stepped later⟩

/-- A decoding that waits is some steps to a state without a next one. -/
theorem steps {state last : State} {bytes rest : List Byte} {outs : List Out}
    (decoded : Decodes step state bytes outs (.waiting last rest)) :
    Steps step state bytes outs last rest ∧ step last rest = .starved := by
  generalize ends : Stand.waiting last rest = stand at decoded
  induction decoded with
  | starved waits =>
    cases ends
    exact ⟨.refl _ _, waits⟩
  | failed => cases ends
  | next stepped _ ih =>
    obtain ⟨later, waits⟩ := ih ends
    exact ⟨.head stepped later, waits⟩

/-- What has been put out stays put out when more bytes arrive. -/
theorem append (stable : Stable step) {state : State} {bytes more : List Byte}
    {outs all : List Out} {stand final : Stand State Byte Failure}
    (before : Decodes step state bytes outs stand)
    (after : Decodes step state (bytes ++ more) all final) : outs <+: all := by
  induction before generalizing all with
  | starved | failed => exact List.nil_prefix
  | next stepped _ ih =>
    cases after with
    | starved waits => cases waits.symm.trans (stable.next more stepped)
    | failed fails => cases fails.symm.trans (stable.next more stepped)
    | next again later =>
      cases (stable.next more stepped).symm.trans again
      rw [List.drop_append_of_le_length (stable.taken stepped).2] at later
      exact (List.prefix_append_right_inj _).mpr (ih later)

end Decodes

/-- What some steps put out begins what the decoding of all the bytes puts out. -/
theorem Steps.prefix_decodes {state last : State} {bytes rest : List Byte} {outs all : List Out}
    {stand : Stand State Byte Failure} (stable : Stable step)
    (steps : Steps step state bytes outs last rest) (decoded : Decodes step state bytes all stand) :
    outs <+: all := by
  obtain ⟨more, end', later⟩ := Decodes.exists_of_stable stable last rest
  obtain ⟨same, -⟩ := decoded.deterministic (steps.decodes later)
  exact ⟨more, same.symm⟩

end SNFrame.Library.Incremental
