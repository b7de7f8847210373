import Mathlib.Algebra.BigOperators.Group.Finset.Basic
import Mathlib.Algebra.Order.BigOperators.Group.Finset
import Mathlib.Algebra.Ring.Nat
import SNFrame.Library.Transition

/-! Runs that come to an end. Every event spends of an effort that is still to be made, except for
what it adds to it; so a run is as long as its first effort and what its events have added. -/

namespace SNFrame.Library.Effort
open Library.Transition

variable {State Event : Type*} {step : State → Event → Option State}

theorem length_le_of_spends (inv : State → Prop) (effort : State → Nat) (gain : Event → Nat)
    (preserved : ∀ start event next, inv start → step start event = some next → inv next)
    (spends : ∀ start event next, inv start → step start event = some next →
      effort next + 1 ≤ effort start + gain event)
    {start finish : State} {events : List Event} (initial : inv start)
    (reached : run step start events = some finish) :
    events.length + effort finish ≤ effort start + (events.map gain).sum := by
  induction events generalizing start with
  | nil =>
    cases reached
    simp
  | cons event events ih =>
    obtain ⟨next, first, rest⟩ := run_cons.mp reached
    have here := spends start event next initial first
    have later := ih (preserved start event next initial first) rest
    rw [List.length_cons, List.map_cons, List.sum_cons]
    omega

/-- A sum in which one term changes. -/
theorem sum_change {Index : Type*} [DecidableEq Index] (indices : Finset Index)
    (before after : Index → Nat) {place : Index} (inside : place ∈ indices)
    (same : ∀ other ∈ indices, other ≠ place → after other = before other) :
    ∑ i ∈ indices, after i + before place = ∑ i ∈ indices, before i + after place := by
  have rest : ∑ i ∈ indices.erase place, after i = ∑ i ∈ indices.erase place, before i :=
    Finset.sum_congr rfl fun other member =>
      same other (Finset.mem_of_mem_erase member) (Finset.ne_of_mem_erase member)
  rw [← Finset.add_sum_erase indices after inside, ← Finset.add_sum_erase indices before inside,
    rest]
  omega

end SNFrame.Library.Effort
