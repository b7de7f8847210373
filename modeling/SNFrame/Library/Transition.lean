import Mathlib.Data.List.Basic

/-! Runs of a partial transition function. A run is the list of events it takes;
an event that the state does not admit has no successor, so a list of events is a
run exactly when `run` answers with a final state. -/

namespace SNFrame.Library.Transition

variable {State Event : Type*} (step : State → Event → Option State)

def run : State → List Event → Option State
  | start, [] => some start
  | start, event :: events => (step start event).bind fun next => run next events

/-- Every event of the list meets the condition in the state it is taken from. -/
def Throughout (condition : State → Event → Prop) : State → List Event → Prop
  | _, [] => True
  | start, event :: events =>
      condition start event ∧
        ∀ next, step start event = some next → Throughout condition next events

/-- Every state that the run enters is good. -/
def Always (good : State → Prop) : State → List Event → Prop :=
  Throughout step fun start event => ∀ next, step start event = some next → good next

instance decidableThroughout (condition : State → Event → Prop)
    [∀ state event, Decidable (condition state event)] :
    ∀ (start : State) (events : List Event), Decidable (Throughout step condition start events)
  | _, [] => .isTrue trivial
  | start, event :: events =>
      match first : step start event with
      | none => decidable_of_iff (condition start event)
          ⟨fun meets => ⟨meets, fun _ some => nomatch first.symm.trans some⟩, And.left⟩
      | some next =>
          have := decidableThroughout condition next events
          decidable_of_iff (condition start event ∧ Throughout step condition next events)
            ⟨fun both => ⟨both.1, fun _ same => Option.some.inj (first.symm.trans same) ▸ both.2⟩,
              fun both => ⟨both.1, both.2 next first⟩⟩

variable {step}

@[simp] theorem run_nil (start : State) : run step start [] = some start := rfl

theorem run_cons {start finish : State} {event : Event} {events : List Event} :
    run step start (event :: events) = some finish ↔
      ∃ next, step start event = some next ∧ run step next events = some finish := by
  simp only [run, Option.bind_eq_some_iff]

/-- A loop that may fail is a run over its list. -/
theorem foldlM_eq_run (start : State) (events : List Event) :
    events.foldlM step start = run step start events := by
  induction events generalizing start with
  | nil => rfl
  | cons event events ih =>
    simp only [List.foldlM_cons, run, Option.bind_eq_bind]
    congr 1
    funext next
    exact ih next

theorem run_append {start finish : State} {before after : List Event} :
    run step start (before ++ after) = some finish ↔
      ∃ middle, run step start before = some middle ∧ run step middle after = some finish := by
  induction before generalizing start with
  | nil => simp
  | cons event before ih =>
    simp only [List.cons_append, run_cons, ih]
    constructor
    · rintro ⟨next, first, middle, left, right⟩
      exact ⟨middle, ⟨next, first, left⟩, right⟩
    · rintro ⟨middle, ⟨next, first, left⟩, right⟩
      exact ⟨next, first, middle, left, right⟩

/-- The induction rule for safety: what every admitted step preserves holds of every state
that a run of admitted steps reaches. -/
theorem invariant_of_throughout (inv : State → Prop) (admitted : State → Event → Prop)
    (preserved : ∀ start event next, inv start → admitted start event →
      step start event = some next → inv next)
    {start finish : State} {events : List Event} (initial : inv start)
    (allowed : Throughout step admitted start events)
    (reached : run step start events = some finish) : inv finish := by
  induction events generalizing start with
  | nil =>
    cases reached
    exact initial
  | cons event events ih =>
    obtain ⟨next, first, rest⟩ := run_cons.mp reached
    exact ih (preserved start event next initial allowed.1 first) (allowed.2 next first) rest

theorem condition_of_throughout {condition : State → Event → Prop} {start middle : State}
    {before after : List Event} {event : Event}
    (holds : Throughout step condition start (before ++ event :: after))
    (reached : run step start before = some middle) : condition middle event := by
  induction before generalizing start with
  | nil =>
    cases reached
    exact holds.1
  | cons first before ih =>
    obtain ⟨next, stepped, rest⟩ := run_cons.mp reached
    exact ih (holds.2 next stepped) rest

theorem throughout_of_mem {condition : State → Event → Prop} (start : State) (events : List Event)
    (always : ∀ state, ∀ event ∈ events, condition state event) :
    Throughout step condition start events := by
  induction events generalizing start with
  | nil => exact trivial
  | cons event events ih =>
    refine ⟨always start event List.mem_cons_self, fun next _ => ih next ?_⟩
    exact fun state other inside => always state other (List.mem_cons_of_mem _ inside)

theorem throughout_and {first second : State → Event → Prop} {start : State} {events : List Event} :
    Throughout step (fun state event => first state event ∧ second state event) start events ↔
      Throughout step first start events ∧ Throughout step second start events := by
  induction events generalizing start with
  | nil => exact (and_self_iff).symm
  | cons event events ih =>
    simp only [Throughout, ih, forall_and]
    exact and_and_and_comm

/-- What holds of every step that is taken holds throughout a run that is reached. -/
theorem throughout_of_reached {condition : State → Event → Prop}
    (taken : ∀ start event next, step start event = some next → condition start event)
    {start finish : State} {events : List Event} (reached : run step start events = some finish) :
    Throughout step condition start events := by
  induction events generalizing start with
  | nil => exact trivial
  | cons event events ih =>
    obtain ⟨next, first, rest⟩ := run_cons.mp reached
    refine ⟨taken start event next first, fun other stepped => ?_⟩
    cases first.symm.trans stepped
    exact ih rest

/-- Two conditions that agree on admitted steps while something is held hold throughout the same
lists of admitted steps, if the first of them keeps it held. -/
theorem throughout_congr_of_admitted (held : State → Prop)
    (admitted : State → Event → Prop) {condition other : State → Event → Prop}
    (regained : ∀ start event next, held start → condition start event →
      step start event = some next → held next)
    (same : ∀ start event, held start → admitted start event →
      (condition start event ↔ other start event))
    {start : State} {events : List Event} (initial : held start)
    (allowed : Throughout step admitted start events) :
    Throughout step condition start events ↔ Throughout step other start events := by
  induction events generalizing start with
  | nil => exact Iff.rfl
  | cons event events ih =>
    have here := same start event initial allowed.1
    constructor
    · rintro ⟨meets, rest⟩
      refine ⟨here.mp meets, fun next first => ?_⟩
      exact (ih (regained start event next initial meets first) (allowed.2 next first)).mp
        (rest next first)
    · rintro ⟨meets, rest⟩
      refine ⟨here.mpr meets, fun next first => ?_⟩
      exact (ih (regained start event next initial (here.mpr meets) first)
        (allowed.2 next first)).mpr (rest next first)

theorem throughout_congr (held : State → Prop) {condition other : State → Event → Prop}
    (regained : ∀ start event next, held start → condition start event →
      step start event = some next → held next)
    (same : ∀ start event, held start → (condition start event ↔ other start event))
    {start : State} (initial : held start) (events : List Event) :
    Throughout step condition start events ↔ Throughout step other start events :=
  throughout_congr_of_admitted held (fun _ _ => True) regained
    (fun start event here _ => same start event here) initial
    (throughout_of_mem start events fun _ _ _ => trivial)

/-- The same along a run that is reached, where only the steps that are taken matter. -/
theorem throughout_iff_of_reached (held : State → Prop) {condition other : State → Event → Prop}
    (regained : ∀ start event next, held start → condition start event →
      step start event = some next → held next)
    (same : ∀ start event next, held start → step start event = some next →
      (condition start event ↔ other start event))
    {start finish : State} {events : List Event} (initial : held start)
    (reached : run step start events = some finish) :
    Throughout step condition start events ↔ Throughout step other start events := by
  apply throughout_congr_of_admitted held (fun start event => ∃ next, step start event = some next)
    regained
  · rintro start event here ⟨next, stepped⟩
    exact same start event next here stepped
  · exact initial
  · exact throughout_of_reached (fun _ _ next stepped => ⟨next, stepped⟩) reached

theorem run_invariant (inv : State → Prop)
    (preserved : ∀ start event next, inv start → step start event = some next → inv next)
    {start finish : State} {events : List Event} (initial : inv start)
    (reached : run step start events = some finish) : inv finish :=
  invariant_of_throughout inv (fun _ _ => True)
    (fun start event next holds _ => preserved start event next holds) initial
    (throughout_of_mem start events fun _ _ _ => trivial) reached

/-- A run of admitted steps stays good when each of them does. -/
theorem always_of_throughout (good : State → Prop) (admitted : State → Event → Prop)
    (preserved : ∀ start event next, good start → admitted start event →
      step start event = some next → good next)
    {start : State} {events : List Event} (initial : good start)
    (allowed : Throughout step admitted start events) : Always step good start events := by
  induction events generalizing start with
  | nil => exact trivial
  | cons event events ih =>
    refine ⟨fun next first => preserved start event next initial allowed.1 first, ?_⟩
    intro next first
    exact ih (preserved start event next initial allowed.1 first) (allowed.2 next first)

theorem always_mono {good weaker : State → Prop} (weaken : ∀ state, good state → weaker state)
    {start : State} {events : List Event} (always : Always step good start events) :
    Always step weaker start events := by
  induction events generalizing start with
  | nil => exact trivial
  | cons event events ih =>
    exact ⟨fun next first => weaken next (always.1 next first),
      fun next first => ih (always.2 next first)⟩

/-- A run does not get stuck when what is admitted is enabled. -/
theorem run_of_throughout (inv : State → Prop) (admitted : State → Event → Prop)
    (preserved : ∀ start event next, inv start → admitted start event →
      step start event = some next → inv next)
    (enabled : ∀ start event, inv start → admitted start event →
      ∃ next, step start event = some next)
    {start : State} {events : List Event} (initial : inv start)
    (allowed : Throughout step admitted start events) :
    ∃ finish, run step start events = some finish := by
  induction events generalizing start with
  | nil => exact ⟨start, rfl⟩
  | cons event events ih =>
    obtain ⟨next, first⟩ := enabled start event initial allowed.1
    obtain ⟨finish, rest⟩ :=
      ih (preserved start event next initial allowed.1 first) (allowed.2 next first)
    exact ⟨finish, run_cons.mpr ⟨next, first, rest⟩⟩

/-- The exact condition for a property of all reached states, from the exact condition of
one step. What is held between the steps may be more than the property of each state, as long
as the property brings it back. -/
theorem always_iff_throughout_of_held (inv held good : State → Prop)
    (admitted condition : State → Event → Prop)
    (preserved : ∀ start event next, inv start → admitted start event →
      step start event = some next → inv next)
    (regained : ∀ start event next, inv start → held start → admitted start event →
      step start event = some next → good next → held next)
    (exact_step : ∀ start event next, inv start → held start → admitted start event →
      step start event = some next → (good next ↔ condition start event))
    {start finish : State} {events : List Event} (initial : inv start) (begins : held start)
    (allowed : Throughout step admitted start events)
    (reached : run step start events = some finish) :
    Always step good start events ↔ Throughout step condition start events := by
  induction events generalizing start with
  | nil => simp [Always, Throughout]
  | cons event events ih =>
    obtain ⟨next, first, rest⟩ := run_cons.mp reached
    have here := exact_step start event next initial begins allowed.1 first
    have again := regained start event next initial begins allowed.1 first
    have later := preserved start event next initial allowed.1 first
    have tail := allowed.2 next first
    simp only [Always, Throughout, first, Option.some.injEq, forall_eq'] at ih ⊢
    constructor
    · rintro ⟨goodNext, stays⟩
      exact ⟨here.mp goodNext, (ih later (again goodNext) tail rest).mp stays⟩
    · rintro ⟨meets, stays⟩
      have goodNext := here.mpr meets
      exact ⟨goodNext, (ih later (again goodNext) tail rest).mpr stays⟩

/-- The same where the property is all that is held: a run of admitted steps stays good if and
only if each of its events meets the condition. -/
theorem always_iff_throughout (inv good : State → Prop) (admitted condition : State → Event → Prop)
    (preserved : ∀ start event next, inv start → admitted start event →
      step start event = some next → inv next)
    (exact_step : ∀ start event next, inv start → good start → admitted start event →
      step start event = some next → (good next ↔ condition start event))
    {start finish : State} {events : List Event} (initial : inv start) (begins : good start)
    (allowed : Throughout step admitted start events)
    (reached : run step start events = some finish) :
    Always step good start events ↔ Throughout step condition start events :=
  always_iff_throughout_of_held inv good good admitted condition preserved
    (fun _ _ _ _ _ _ _ goodNext => goodNext) exact_step initial begins allowed reached

/-- The same over every list of events, where a good state enables what is admitted. -/
theorem always_iff_throughout_of_enabled (inv good : State → Prop)
    (admitted condition : State → Event → Prop)
    (exact_step : ∀ start event, inv start → good start → admitted start event →
      ∃ next, step start event = some next ∧ inv next ∧ (good next ↔ condition start event))
    {start : State} {events : List Event} (initial : inv start) (begins : good start)
    (allowed : Throughout step admitted start events) :
    Always step good start events ↔ Throughout step condition start events := by
  induction events generalizing start with
  | nil => simp [Always, Throughout]
  | cons event events ih =>
    obtain ⟨next, first, later, here⟩ := exact_step start event initial begins allowed.1
    have tail := allowed.2 next first
    simp only [Always, Throughout, first, Option.some.injEq, forall_eq'] at ih ⊢
    constructor
    · rintro ⟨goodNext, stays⟩
      exact ⟨here.mp goodNext, (ih later goodNext tail).mp stays⟩
    · rintro ⟨meets, stays⟩
      have goodNext := here.mpr meets
      exact ⟨goodNext, (ih later goodNext tail).mpr stays⟩

end SNFrame.Library.Transition
