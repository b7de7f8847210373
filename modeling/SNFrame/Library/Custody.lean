import Mathlib.Data.Set.Insert
import Mathlib.Logic.Function.Basic

/-! Resources that have one holder. Each holder has at most one resource at a time; resources
are acquired, released, moved from one holder to another, or forgotten. -/

namespace SNFrame.Library.Custody

variable {Holder Resource : Type*}

/-- What is held is allocated, and is held once. -/
structure SoleHolder (held : Holder → Option Resource) (allocated : Set Resource) : Prop where
  unique : ∀ i j r, held i = some r → held j = some r → i = j
  allocated : ∀ i r, held i = some r → r ∈ allocated

theorem soleHolder_empty (allocated : Set Resource) :
    SoleHolder (fun _ : Holder => none) allocated where
  unique _ _ _ here := nomatch here
  allocated _ _ here := nomatch here

variable {held : Holder → Option Resource} {allocated : Set Resource}

/-- Fewer holdings, over more resources. -/
theorem SoleHolder.mono (custody : SoleHolder held allocated) {held' : Holder → Option Resource}
    {allocated' : Set Resource} (fewer : ∀ i r, held' i = some r → held i = some r)
    (more : ∀ i r, held' i = some r → r ∈ allocated → r ∈ allocated') :
    SoleHolder held' allocated' where
  unique i j r here there := custody.unique i j r (fewer i r here) (fewer j r there)
  allocated i r here := more i r here (custody.allocated i r (fewer i r here))

variable [DecidableEq Holder]

theorem held_of_forgotten {i j : Holder} {r : Resource}
    (here : Function.update held i none j = some r) : j ≠ i ∧ held j = some r := by
  by_cases same : j = i
  · subst same
    rw [Function.update_self] at here
    cases here
  · rw [Function.update_of_ne same] at here
    exact ⟨same, here⟩

/-- A holder forgets what it holds. -/
theorem SoleHolder.forget (custody : SoleHolder held allocated) (i : Holder) :
    SoleHolder (Function.update held i none) allocated :=
  custody.mono (fun _ _ here => (held_of_forgotten here).2) fun _ _ _ inside => inside

/-- A holder gives back what it holds. -/
theorem SoleHolder.release (custody : SoleHolder held allocated) {i : Holder} {r : Resource}
    (holds : held i = some r) :
    SoleHolder (Function.update held i none) (allocated \ {r}) := by
  apply custody.mono fun _ _ here => (held_of_forgotten here).2
  intro j other here inside
  refine ⟨inside, ?_⟩
  rintro rfl
  obtain ⟨elsewhere, there⟩ := held_of_forgotten here
  exact elsewhere (custody.unique _ _ _ there holds)

/-- A holder takes a new resource, and forgets what it held. -/
theorem SoleHolder.acquire (custody : SoleHolder held allocated) (i : Holder) {r : Resource}
    (fresh : r ∉ allocated) :
    SoleHolder (Function.update held i (some r)) (insert r allocated) := by
  have apart : ∀ j, held j ≠ some r := fun j here => fresh (custody.allocated j r here)
  constructor
  · intro j k other here there
    by_cases first : j = i <;> by_cases second : k = i
    · rw [first, second]
    · rw [first, Function.update_self, Option.some.injEq] at here
      rw [Function.update_of_ne second, ← here] at there
      exact absurd there (apart k)
    · rw [second, Function.update_self, Option.some.injEq] at there
      rw [Function.update_of_ne first, ← there] at here
      exact absurd here (apart j)
    · rw [Function.update_of_ne first] at here
      rw [Function.update_of_ne second] at there
      exact custody.unique j k other here there
  · intro j other here
    by_cases same : j = i
    · rw [same, Function.update_self, Option.some.injEq] at here
      exact .inl here.symm
    · rw [Function.update_of_ne same] at here
      exact .inr (custody.allocated j other here)

/-- What one holder has goes to another, which forgets what it held. -/
theorem SoleHolder.move (custody : SoleHolder held allocated) (source target : Holder) :
    SoleHolder (Function.update (Function.update held target (held source)) source none)
      allocated := by
  have origin : ∀ j r,
      Function.update (Function.update held target (held source)) source none j = some r →
      j ≠ source ∧ held (if j = target then source else j) = some r := by
    intro j r here
    obtain ⟨elsewhere, there⟩ := held_of_forgotten here
    refine ⟨elsewhere, ?_⟩
    by_cases same : j = target
    · rw [if_pos same]
      rwa [same, Function.update_self] at there
    · rw [if_neg same]
      rwa [Function.update_of_ne same] at there
  constructor
  · intro j k r here there
    obtain ⟨apart, first⟩ := origin j r here
    obtain ⟨apart', second⟩ := origin k r there
    have meet := custody.unique _ _ r first second
    by_cases same : j = target <;> by_cases same' : k = target
    · rw [same, same']
    · rw [if_pos same, if_neg same'] at meet
      exact absurd meet.symm apart'
    · rw [if_neg same, if_pos same'] at meet
      exact absurd meet apart
    · rwa [if_neg same, if_neg same'] at meet
  · intro j r here
    exact custody.allocated _ r (origin j r here).2

end SNFrame.Library.Custody
