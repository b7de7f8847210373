import SNFrame.Library.RoundRobin
import SNFrame.System.Jobs

/-! How `addJob` shares the jobs among the workers. The index goes round over the threads that
were created working, and `start(false)` creates at most ten of them so, whatever their number. -/

namespace SNFrame.System.Sharing
open Library.Transition Library.RoundRobin Core.ThreadPool Jobs

/-- The job and the worker, when a call of `addJob` chooses one. -/
def assigns (pool : Pool) : Event → List (Job × Nat)
  | .call job =>
    match pool.calls[job]? with
    | some ⟨.select, _⟩ => [(job, nextIndex pool)]
    | _ => []
  | _ => []

/-- The jobs of a run with their workers, in the order in which the calls choose. -/
def assigned (pool : Pool) : List Event → List (Job × Nat)
  | [] => []
  | event :: events => assigns pool event ++
      match step pool event with
      | some next => assigned next events
      | none => []

/-- Of any `n` consecutive choices one is for each worker, and no worker has two jobs more than
another. -/
def Shared (n : Nat) (workers : List Nat) : Prop :=
  (∀ before window after, workers = before ++ window ++ after → window.length = n →
    ∀ w < n, window.count w = 1) ∧
  ∀ w < n, ∀ v < n, workers.count w ≤ workers.count v + 1

/-- A call puts its job on the queue of its worker, and each queue gets such jobs only. -/
structure Owned (log : List (Job × Nat)) (calls : List Call) (threads : List ThreadInfo) :
    Prop where
  chose : ∀ (job : Job) (call : Call), calls[job]? = some call →
    ∀ w, chosen call.pc = some w → (job, w) ∈ log
  placed : ∀ (w : Nat) (info : ThreadInfo), threads[w]? = some info →
    ∀ job ∈ info.placed, (job, w) ∈ log

/-! ### The index -/

section Index
variable {pool next : Pool} {job : Job} {event : Event}

theorem nextIndex_eq (inside : pool.index < pool.workingNum) (small : pool.workingNum < 2 ^ 32) :
    nextIndex pool = (pool.index + 1) % pool.workingNum := by
  have wrapped : wrap (pool.index + 1) = pool.index + 1 := Nat.mod_eq_of_lt (by omega)
  rw [nextIndex, wrapped]
  split_ifs with last
  · rw [show pool.index + 1 = pool.workingNum by omega, Nat.mod_self]
  · rw [Nat.mod_eq_of_lt (by omega)]

/-- Only a choice moves the index. -/
theorem stepCall_index (taken : stepCall pool job = some next) :
    next.workingNum = pool.workingNum ∧
      (assigns pool (.call job) = [] ∧ next.index = pool.index ∨
        assigns pool (.call job) = [(job, nextIndex pool)] ∧ next.index = nextIndex pool) := by
  unfold stepCall at taken
  obtain ⟨⟨pc, context⟩, here, taken⟩ := Option.bind_eq_some_iff.mp taken
  simp only [assigns, here]
  cases pc with
  | test =>
    simp only at taken
    split_ifs at taken <;> cases taken <;> exact ⟨rfl, .inl ⟨rfl, rfl⟩⟩
  | lockThreads =>
    simp only at taken
    split_ifs at taken
    cases taken
    exact ⟨rfl, .inl ⟨rfl, rfl⟩⟩
  | select =>
    cases taken
    exact ⟨rfl, .inr ⟨rfl, rfl⟩⟩
  | unlockThreads info =>
    cases taken
    exact ⟨rfl, .inl ⟨rfl, rfl⟩⟩
  | lock info =>
    obtain ⟨thread, -, taken⟩ := Option.bind_eq_some_iff.mp taken
    simp only at taken
    split_ifs at taken
    cases taken
    exact ⟨rfl, .inl ⟨rfl, rfl⟩⟩
  | push info =>
    obtain ⟨thread, -, taken⟩ := Option.bind_eq_some_iff.mp taken
    cases taken
    exact ⟨rfl, .inl ⟨rfl, rfl⟩⟩
  | unlock info =>
    obtain ⟨thread, -, taken⟩ := Option.bind_eq_some_iff.mp taken
    cases taken
    exact ⟨rfl, .inl ⟨rfl, rfl⟩⟩
  | returned => cases taken

theorem step_index (stepped : step pool event = some next) :
    next.workingNum = pool.workingNum ∧
      (assigns pool event = [] ∧ next.index = pool.index ∨
        ∃ job, assigns pool event = [(job, nextIndex pool)] ∧ next.index = nextIndex pool) := by
  cases event with
  | addJob =>
    cases stepped
    exact ⟨rfl, .inl ⟨rfl, rfl⟩⟩
  | call job =>
    obtain ⟨same, index⟩ := stepCall_index stepped
    exact ⟨same, index.imp_right fun chosen => ⟨job, chosen⟩⟩
  | worker w =>
    obtain ⟨info, -, stepped⟩ := Option.bind_eq_some_iff.mp stepped
    obtain ⟨done, -, stepped⟩ := Option.bind_eq_some_iff.mp stepped
    cases stepped
    exact ⟨rfl, .inl ⟨rfl, rfl⟩⟩
  | stop =>
    cases stepped
    exact ⟨rfl, .inl ⟨rfl, rfl⟩⟩

/-- The choices of a run are the turns of a round over the working threads. -/
theorem assigned_turns {events : List Event} {finish : Pool} (turn : Nat)
    (index : pool.index = turn % pool.workingNum) (some_thread : 0 < pool.workingNum)
    (small : pool.workingNum < 2 ^ 32) (reached : run step pool events = some finish) :
    (assigned pool events).map Prod.snd =
      turns pool.workingNum (turn + 1) (assigned pool events).length := by
  induction events generalizing pool turn with
  | nil => rfl
  | cons event events ih =>
    obtain ⟨next, stepped, rest⟩ := run_cons.mp reached
    obtain ⟨same, index'⟩ := step_index stepped
    have split : assigned pool (event :: events) = assigns pool event ++ assigned next events := by
      rw [assigned, stepped]
    rw [split, List.map_append, List.length_append]
    rcases index' with ⟨none, kept⟩ | ⟨job, chosen, moved⟩
    · have later := ih turn (by rw [kept, same, index]) (same ▸ some_thread) (same ▸ small) rest
      rw [none, later, same, List.map_nil, List.nil_append, List.length_nil, Nat.zero_add]
    · have inside : pool.index < pool.workingNum := index ▸ Nat.mod_lt _ some_thread
      have value : nextIndex pool = (turn + 1) % pool.workingNum := by
        rw [nextIndex_eq inside small, index, Nat.mod_add_mod]
      have later := ih (turn + 1) (by rw [moved, same, value]) (same ▸ some_thread)
        (same ▸ small) rest
      rw [chosen, later, same, turns_append, value]
      rfl

end Index

/-! ### The queues -/

section Queues
variable {log : List (Job × Nat)} {calls : List Call} {threads : List ThreadInfo} {pool next : Pool}

theorem Owned.more (owned : Owned log calls threads) (later : List (Job × Nat)) :
    Owned (log ++ later) calls threads where
  chose job call here w choice := List.mem_append_left _ (owned.chose job call here w choice)
  placed w info here job inside := List.mem_append_left _ (owned.placed w info here job inside)

theorem Owned.goOn (owned : Owned log calls threads) {job : Job} {call : Call}
    (chooses : ∀ w, chosen call.pc = some w → (job, w) ∈ log) :
    Owned log (calls.set job call) threads where
  chose other found here := by
    obtain ⟨rfl, rfl⟩ | ⟨-, before⟩ := found_of_set here
    · exact chooses
    · exact owned.chose other found before
  placed := owned.placed

theorem Owned.update (owned : Owned log calls threads) {w : Nat} {info info' : ThreadInfo}
    (here : threads[w]? = some info)
    (grows : ∀ job ∈ info'.placed, job ∈ info.placed ∨ (job, w) ∈ log) :
    Owned log calls (threads.set w info') where
  chose := owned.chose
  placed other found there job inside := by
    obtain ⟨rfl, rfl⟩ | ⟨-, before⟩ := found_of_set there
    · exact (grows job inside).elim (owned.placed other info here job) id
    · exact owned.placed other found before job inside

theorem Owned.enter (owned : Owned log calls threads) (context : Context) :
    Owned log (calls ++ [⟨.test, context⟩]) threads where
  chose job call here w choice := by
    rw [List.getElem?_append] at here
    split_ifs at here
    · exact owned.chose job call here w choice
    · have new := List.mem_singleton.mp (List.mem_of_getElem? here)
      rw [new] at choice
      cases choice
  placed := owned.placed

theorem stepCall_owned {job : Job} (inv : Inv pool) (owned : Owned log pool.calls pool.threads)
    (taken : stepCall pool job = some next) :
    Owned (log ++ assigns pool (.call job)) next.calls next.threads := by
  unfold stepCall at taken
  obtain ⟨⟨pc, context⟩, here, taken⟩ := Option.bind_eq_some_iff.mp taken
  have chose := owned.chose job _ here
  have carries := inv.placement.carries job _ here
  have longer := owned.more (assigns pool (.call job))
  have stillChose : ∀ w, chosen pc = some w → (job, w) ∈ log ++ assigns pool (.call job) :=
    fun w choice => List.mem_append_left _ (chose w choice)
  cases pc with
  | test =>
    simp only [inv.single, Bool.false_eq_true, if_false, Option.some.injEq] at taken
    rw [← taken]
    exact longer.goOn fun _ choice => by cases choice
  | lockThreads =>
    simp only at taken
    split_ifs at taken
    cases taken
    exact longer.goOn fun _ choice => by cases choice
  | select =>
    cases taken
    refine longer.goOn ?_
    rintro w ⟨⟩
    simp [assigns, here]
  | unlockThreads info =>
    cases taken
    exact longer.goOn stillChose
  | lock info =>
    obtain ⟨thread, there, taken⟩ := Option.bind_eq_some_iff.mp taken
    simp only at taken
    split_ifs at taken
    cases taken
    refine (longer.update there ?_).goOn stillChose
    exact fun _ inside => .inl inside
  | push info =>
    obtain ⟨thread, there, taken⟩ := Option.bind_eq_some_iff.mp taken
    have context : context = some job := carries trivial
    subst context
    cases taken
    refine (longer.update there ?_).goOn stillChose
    intro other inside
    rcases List.mem_append.mp inside with before | now
    · exact .inl before
    · rw [List.mem_singleton.mp now]
      exact .inr (stillChose info rfl)
  | unlock info =>
    obtain ⟨thread, there, taken⟩ := Option.bind_eq_some_iff.mp taken
    cases taken
    refine (longer.update there ?_).goOn ?_
    · exact fun _ inside => .inl inside
    · intro w choice
      cases choice
  | returned => cases taken

theorem step_owned {event : Event} (inv : Inv pool) (owned : Owned log pool.calls pool.threads)
    (stepped : step pool event = some next) :
    Owned (log ++ assigns pool event) next.calls next.threads := by
  have longer := owned.more (assigns pool event)
  cases event with
  | addJob =>
    cases stepped
    exact longer.enter _
  | call job => exact stepCall_owned inv owned stepped
  | worker w =>
    obtain ⟨info, here, stepped⟩ := Option.bind_eq_some_iff.mp stepped
    obtain ⟨⟨mutex, info'⟩, moved, stepped⟩ := Option.bind_eq_some_iff.mp stepped
    cases stepped
    obtain ⟨-, -, same⟩ := workerStep_inv (inv.workers info (List.mem_of_getElem? here)) moved
    exact longer.update here fun job inside => .inl (same ▸ inside)
  | stop =>
    cases stepped
    exact longer

/-- Every queue of a run has got jobs that were assigned to it, and no others. -/
theorem assigned_owned {events : List Event} {finish : Pool} (inv : Inv pool)
    (owned : Owned log pool.calls pool.threads) (reached : run step pool events = some finish) :
    Owned (log ++ assigned pool events) finish.calls finish.threads := by
  induction events generalizing pool log with
  | nil =>
    cases reached
    exact owned.more _
  | cons event events ih =>
    obtain ⟨next, stepped, rest⟩ := run_cons.mp reached
    have later := ih (step_inv _ _ _ inv stepped) (step_owned inv owned stepped) rest
    rw [List.append_assoc] at later
    rwa [assigned, stepped]

end Queues

/-! ### Runs -/

theorem started_owned (n : Nat) : Owned [] (started n).calls (started n).threads := by
  rw [started_eq]
  refine ⟨nofun, ?_⟩
  intro w info here job inside
  obtain ⟨v, -, rfl⟩ := List.mem_map.mp (List.mem_of_getElem? here)
  cases inside

/-- Turns over `min n 10` places are shared among `n` workers exactly if there are no others, or
not more turns than places. -/
theorem shared_turns_iff (n count : Nat) (some_thread : 1 ≤ n) :
    Shared n (turns (min n 10) 1 count) ↔ n ≤ 10 ∨ count ≤ 10 := by
  constructor
  · intro shared
    by_contra neither
    obtain ⟨many, more⟩ := not_or.mp neither
    have places : min n 10 = 10 := by omega
    have balanced := shared.2 1 (by omega) 10 (by omega)
    have unused : (turns 10 1 count).count 10 = 0 := count_outside le_rfl (by decide) 1 count
    have again :
        turns 10 1 count = turns 10 1 10 ++ (turns 10 11 1 ++ turns 10 12 (count - 11)) := by
      rw [← turns_append, ← turns_append]
      congr 1
      omega
    have twice : 2 ≤ (turns 10 1 count).count 1 := by
      rw [again, List.count_append, List.count_append, count_round (by decide)]
      have first : (turns 10 11 1).count 1 = 1 := rfl
      omega
    rw [places] at balanced
    omega
  · intro few
    by_cases small : n ≤ 10
    · have places : min n 10 = n := by omega
      rw [places]
      refine ⟨?_, fun w inside v also => count_balanced inside also 1 count⟩
      intro before window after split full w inside
      rw [turns_stretch split, full]
      exact count_round inside _
    · have short : count ≤ 10 := few.resolve_left small
      have places : min n 10 = 10 := by omega
      rw [places]
      refine ⟨?_, fun w _ v _ => ?_⟩
      · intro before window after split full
        have counted := congrArg List.length split
        simp only [turns_length, List.length_append] at counted
        omega
      · by_cases working : w < 10
        · exact (count_le_one working 1 short).trans (Nat.le_add_left 1 _)
        · rw [count_outside (by omega) (by decide)]
          exact Nat.zero_le _

/-- In every run each job that is or was on a queue is one that its worker was chosen for, and the
`n` workers share the jobs if and only if there are at most ten of them or at most ten jobs
have been assigned. -/
theorem load_shared_iff (n : Nat) (some_thread : 1 ≤ n) (events : List Event) (pool : Pool)
    (reached : run step (started n) events = some pool) :
    (started n).threads.length = n ∧
      (∀ (w : Nat) (info : ThreadInfo), pool.threads[w]? = some info →
        ∀ job ∈ info.placed, (job, w) ∈ assigned (started n) events) ∧
      (Shared n ((assigned (started n) events).map Prod.snd) ↔
        n ≤ 10 ∨ (assigned (started n) events).length ≤ 10) := by
  have inv := started_inv n some_thread
  have owned := assigned_owned inv (started_owned n) reached
  refine ⟨?_, owned.placed, ?_⟩
  · rw [started_eq, List.length_map, List.length_range']
  · have working : (started n).workingNum = min n 10 := by rw [started_eq]
    have index : (started n).index = 0 := by rw [started_eq]; rfl
    have choices := assigned_turns 0 (by rw [index, Nat.zero_mod]) (by omega) inv.small reached
    rw [working] at choices
    rw [choices]
    exact shared_turns_iff n _ some_thread

/-- Eleven calls, one after the other. -/
def elevenCalls : List Event :=
  (List.range 11).flatMap fun job => .addJob :: List.replicate 7 (.call job)

theorem load_shared_iff_eleven_calls : ∃ pool,
    run step (started 2) elevenCalls = some pool ∧
      (Shared 2 ((assigned (started 2) elevenCalls).map Prod.snd) ↔
        2 ≤ 10 ∨ (assigned (started 2) elevenCalls).length ≤ 10) := by
  have returns : (run step (started 2) elevenCalls).isSome = true := by decide +kernel
  obtain ⟨pool, reached⟩ := Option.isSome_iff_exists.mp returns
  exact ⟨pool, reached, (load_shared_iff 2 (by decide) elevenCalls pool reached).2.2⟩

/-- Of eleven workers the second gets the first and the last of eleven jobs, and the eleventh
none. -/
theorem eleventh_worker_idle : ∃ pool,
    run step (started 11) elevenCalls = some pool ∧
      ((assigned (started 11) elevenCalls).map Prod.snd).count 1 = 2 ∧
      ((assigned (started 11) elevenCalls).map Prod.snd).count 10 = 0 := by
  have returns : (run step (started 11) elevenCalls).isSome = true := by decide +kernel
  obtain ⟨pool, reached⟩ := Option.isSome_iff_exists.mp returns
  exact ⟨pool, reached, by decide +kernel, by decide +kernel⟩

end SNFrame.System.Sharing
