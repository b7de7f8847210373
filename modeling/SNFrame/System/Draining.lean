import SNFrame.Library.Effort
import SNFrame.System.Jobs

/-! The pool never gets stuck with a job. Here a wait on a condition ends only when it has been
signalled, or without a reason; a signal that no one waits for is lost.

The runs begin where `create_threads` has returned. It starts each worker before it sets up the
worker's mutex and condition and puts the worker into the vector, so that this is a condition on
the scheduler: no worker comes to its own mutex before these lines have run for it. A worker that
waits on its condition before `init_cond` need never be woken, and is not covered. -/

namespace SNFrame.System.Draining
open Library.Transition Library.Effort Core.ThreadPool System.Jobs

/-- The pool and the workers whose wait has been ended. -/
structure Waking where
  pool : Pool
  woken : Nat → Bool

inductive Event where
  | addJob
  | call (job : Job)
  | worker (w : Nat)
  | spurious (w : Nat)
  deriving DecidableEq, Repr

/-- Inside `wait_cond`. -/
def Parked : WorkerPc → Prop
  | .wait | .waitThreads => True
  | _ => False

instance decidableParked (pc : WorkerPc) : Decidable (Parked pc) := by
  cases pc <;> first | exact .isTrue trivial | exact .isFalse not_false

/-- The worker whose queue a call is about to push on. -/
def pushing (pool : Pool) (job : Job) : Option Nat :=
  (pool.calls[job]?).bind fun call => match call.pc with
    | .push info => some info
    | _ => none

/-- `signal_cond(info->m_cond)`. -/
def signal (pool : Pool) (woken : Nat → Bool) (job : Job) : Nat → Bool :=
  match pushing pool job with
  | some w =>
      if (pool.threads[w]?).any (fun info => info.pc = .wait) then Function.update woken w true
      else woken
  | none => woken

/-- The worker waits, and nothing has ended its wait. -/
def Asleep (waking : Waking) (w : Nat) : Prop :=
  ∃ info, waking.pool.threads[w]? = some info ∧ Parked info.pc ∧ waking.woken w = false

instance decidableAsleep (waking : Waking) (w : Nat) : Decidable (Asleep waking w) :=
  match here : waking.pool.threads[w]? with
  | none => .isFalse fun ⟨_, there, _⟩ => nomatch here.symm.trans there
  | some info => decidable_of_iff (Parked info.pc ∧ waking.woken w = false)
      ⟨fun both => ⟨info, here, both⟩, fun ⟨_, there, both⟩ =>
        Option.some.inj (here.symm.trans there) ▸ both⟩

def step (waking : Waking) : Event → Option Waking
  | .addJob => (Core.ThreadPool.step waking.pool .addJob).map fun pool => ⟨pool, waking.woken⟩
  | .call job => (stepCall waking.pool job).map fun pool =>
      ⟨pool, signal waking.pool waking.woken job⟩
  | .worker w =>
      if Asleep waking w then none
      else (stepWorker waking.pool w).map fun pool =>
        ⟨pool, Function.update waking.woken w false⟩
  | .spurious w =>
      if Asleep waking w then some { waking with woken := Function.update waking.woken w true }
      else none

/-- The pool of `init(recver, n)` and `start(false)`, with the mutex and the condition of every
worker set up before the worker has come to them. -/
def start (n : Nat) : Waking := ⟨started n, fun _ => false⟩

/-! ### One worker -/

/-- Where a thread with this flag can stand while the pool runs. -/
def Stands (info : ThreadInfo) : Prop :=
  if info.work then info.pc ∉ [.lockThreads, .checkWork, .waitThreads, .unlockThreads, .exited]
  else info.pc ∈ [.test, .lockThreads, .checkWork, .waitThreads] ∧ info.buf = []

/-- Inside the critical section of its own mutex. -/
def Inside (pc : WorkerPc) : Prop := pc ∈ [.checkEmpty, .front, .pop, .unlock]

def pcEffort (woken : Bool) : WorkerPc → Nat
  | .unlock => 6
  | .getData => 5
  | .test => 4
  | .lock | .lockThreads => 3
  | .checkEmpty | .checkWork => 2
  | .front => 1
  | .wait | .waitThreads => if woken then 3 else 0
  | .pop | .unlockThreads | .exited => 0

/-- What a worker still has to do before it can only wait. -/
def workerEffort (woken : Bool) (info : ThreadInfo) : Nat :=
  7 * info.buf.length + pcEffort woken info.pc

/-- What a step of a worker does to the mutexes, its flag and its effort. -/
structure Stepped (w : Nat) (woken : Bool) (info info' : ThreadInfo)
    (threadsMutex threadsMutex' : Option Thread) : Prop where
  stands : Stands info'
  heard : info'.pc = .wait → info'.buf = []
  spent : workerEffort false info' + 1 ≤ workerEffort woken info
  threads : threadsMutex' = threadsMutex ∧ info.pc ≠ .checkWork ∨ threadsMutex' = none ∨
    threadsMutex' = some (.worker w) ∧ info'.pc = .checkWork
  mutex : info'.mutex = info.mutex ∧ (Inside info.pc → Inside info'.pc) ∨ info'.mutex = none ∨
    info'.mutex = some (.worker w) ∧ Inside info'.pc

theorem Stands.working {info : ThreadInfo} (stands : Stands info)
    (busy : info.pc ∈ [.lock, .checkEmpty, .wait, .front, .pop, .unlock, .getData]) :
    info.work = true := by
  by_contra asleep
  simp only [Stands, asleep, if_false] at stands
  generalize info.pc = pc at stands busy
  cases pc <;> simp at stands busy

theorem Stands.resting {info : ThreadInfo} (stands : Stands info)
    (idle : info.pc ∈ [.lockThreads, .checkWork, .waitThreads]) :
    info.work = false ∧ info.buf = [] := by
  cases work : info.work with
  | false =>
    simp only [Stands, work, Bool.false_eq_true, if_false] at stands
    exact ⟨rfl, stands.2⟩
  | true =>
    simp only [Stands, work, if_true] at stands
    generalize info.pc = pc at stands idle
    cases pc <;> simp at stands idle

theorem pcEffort_entering {woken : Bool} {pc : WorkerPc} (awake : Parked pc → woken = true)
    (entering : pc ∈ [.lock, .lockThreads, .wait, .waitThreads]) : pcEffort woken pc = 3 := by
  cases pc <;> simp_all [pcEffort, Parked]

theorem workerStep_stepped {w : Nat} {woken : Bool} {threadsMutex threadsMutex' : Option Thread}
    {info info' : ThreadInfo} (inv : WorkerInv info) (stands : Stands info)
    (awake : Parked info.pc → woken = true)
    (taken : workerStep w false threadsMutex info = some (threadsMutex', info')) :
    Stepped w woken info info' threadsMutex threadsMutex' := by
  unfold workerStep at taken
  cases pc : info.pc with
  | test =>
    simp only [pc, Bool.false_eq_true, if_false] at taken
    split at taken
    · next resting =>
      cases taken
      have asleep : info.work = false := by simpa using resting.1
      refine ⟨?_, nofun, ?_, .inl ⟨rfl, by rw [pc]; nofun⟩, .inl ⟨rfl, ?_⟩⟩
      · simp [Stands, asleep, resting.2]
      · simp [workerEffort, pcEffort, pc]
      · simp [Inside, pc]
    · next busy =>
      cases taken
      have working : info.work = true := by
        by_contra resting
        simp only [Bool.not_eq_true] at resting
        simp only [Stands, resting, Bool.false_eq_true, if_false] at stands
        exact busy ⟨by simp [resting], stands.2⟩
      refine ⟨?_, nofun, ?_, .inl ⟨rfl, by rw [pc]; nofun⟩, .inl ⟨rfl, ?_⟩⟩
      · simp [Stands, working]
      · simp [workerEffort, pcEffort, pc]
      · simp [Inside, pc]
  | lockThreads | waitThreads =>
    simp only [pc] at taken
    split at taken
    · cases taken
      obtain ⟨asleep, empty⟩ := stands.resting (by simp [pc])
      refine ⟨?_, nofun, ?_, .inr (.inr ⟨rfl, rfl⟩), .inl ⟨rfl, ?_⟩⟩
      · simp [Stands, asleep, empty]
      · rw [workerEffort, workerEffort, pcEffort_entering awake (by simp [pc]), pcEffort]
      · simp [Inside, pc]
    · cases taken
  | checkWork =>
    obtain ⟨asleep, empty⟩ := stands.resting (by simp [pc])
    simp only [pc, asleep] at taken
    cases taken
    refine ⟨?_, nofun, ?_, .inr (.inl rfl), .inl ⟨rfl, ?_⟩⟩
    · simp [Stands, empty]
    · simp [workerEffort, pcEffort, pc]
    · simp [Inside, pc]
  | unlockThreads | exited => simp [Stands, pc] at stands
  | lock | wait =>
    have working := stands.working (by simp [pc])
    simp only [pc] at taken
    split at taken
    · cases taken
      refine ⟨?_, nofun, ?_, .inl ⟨rfl, by rw [pc]; nofun⟩, .inr (.inr ⟨rfl, ?_⟩)⟩
      · simp [Stands, working]
      · rw [workerEffort, workerEffort, pcEffort_entering awake (by simp [pc]), pcEffort]
      · simp [Inside]
    · cases taken
  | checkEmpty =>
    have working := stands.working (by simp [pc])
    simp only [pc] at taken
    split at taken
    · next empty =>
      cases taken
      refine ⟨?_, fun _ => empty, ?_, .inl ⟨rfl, by rw [pc]; nofun⟩, .inr (.inl rfl)⟩
      · simp [Stands, working]
      · simp [workerEffort, pcEffort, pc, empty]
    · cases taken
      refine ⟨?_, nofun, ?_, .inl ⟨rfl, by rw [pc]; nofun⟩, .inl ⟨rfl, ?_⟩⟩
      · simp [Stands, working]
      · simp [workerEffort, pcEffort, pc]
      · simp [Inside]
  | front =>
    have working := stands.working (by simp [pc])
    simp only [pc] at taken
    split at taken
    · cases taken
    · next queued =>
      cases taken
      refine ⟨?_, nofun, ?_, .inl ⟨rfl, by rw [pc]; nofun⟩, .inl ⟨rfl, ?_⟩⟩
      · simp [Stands, working]
      · simp [workerEffort, pcEffort, pc, queued]
      · simp [Inside]
  | pop =>
    have working := stands.working (by simp [pc])
    obtain ⟨rest, queued⟩ := inv.moved pc
    simp only [pc] at taken
    cases taken
    refine ⟨?_, nofun, ?_, .inl ⟨rfl, by rw [pc]; nofun⟩, .inl ⟨rfl, ?_⟩⟩
    · simp [Stands, working]
    · simp only [workerEffort, pcEffort, pc, queued, List.tail_cons, List.length_cons]
      omega
    · simp [Inside]
  | unlock =>
    have working := stands.working (by simp [pc])
    simp only [pc] at taken
    cases taken
    refine ⟨?_, nofun, ?_, .inl ⟨rfl, by rw [pc]; nofun⟩, .inr (.inl rfl)⟩
    · simp [Stands, working]
    · simp [workerEffort, pcEffort, pc]
  | getData =>
    have working := stands.working (by simp [pc])
    simp only [pc] at taken
    cases taken
    refine ⟨?_, nofun, ?_, .inl ⟨rfl, by rw [pc]; nofun⟩, .inl ⟨rfl, ?_⟩⟩
    · simp [Stands, working]
    · simp [workerEffort, pcEffort, pc]
    · simp [Inside, pc]

/-! ### One call -/

/-- Inside the critical section of `m_threads_mutex`. -/
def InThreads : CallPc → Prop
  | .select | .unlockThreads _ => True
  | _ => False

/-- Inside the critical section of a worker's mutex. -/
def InOwn (w : Nat) : CallPc → Prop
  | .push info | .unlock info => info = w
  | _ => False

/-- What a call still has to do, and the worker for it. -/
def callEffort : CallPc → Nat
  | .test => 17
  | .lockThreads => 16
  | .select => 15
  | .unlockThreads _ => 14
  | .lock _ => 13
  | .push _ => 12
  | .unlock _ => 1
  | .returned => 0

/-- What a step of a call does to a worker. -/
structure Touched (k : Job) (w : Nat) (pc pc' : CallPc) (info info' : ThreadInfo) : Prop where
  stays : info'.pc = info.pc
  work : info'.work = info.work
  buf : info'.buf = info.buf ∨ pc = .push w ∧ info'.buf.length = info.buf.length + 1
  mutex : info'.mutex = info.mutex ∧ (InOwn w pc → InOwn w pc') ∨ info'.mutex = none ∨
    info'.mutex = some (.call k) ∧ InOwn w pc'

/-- What a step of a call does to the pool. -/
structure Advanced (k : Job) (call call' : Call) (pool pool' : Pool) : Prop where
  calls : pool'.calls = pool.calls.set k call'
  stop : pool'.stop = pool.stop
  length : pool'.threads.length = pool.threads.length
  workers : ∀ w info', pool'.threads[w]? = some info' →
    ∃ info, pool.threads[w]? = some info ∧ Touched k w call.pc call'.pc info info'
  spent : callEffort call'.pc + 1 ≤ callEffort call.pc
  pushed : ∀ w, call.pc = .push w → callEffort call'.pc + 11 ≤ callEffort call.pc
  threads : pool'.threadsMutex = pool.threadsMutex ∧ (InThreads call.pc → InThreads call'.pc) ∨
    pool'.threadsMutex = none ∨ pool'.threadsMutex = some (.call k) ∧ InThreads call'.pc

/-- A call that changes no worker. -/
theorem untouched {k : Job} {pc pc' : CallPc} {threads : List ThreadInfo}
    (outside : ∀ w, ¬InOwn w pc) (w : Nat) (info' : ThreadInfo) (here : threads[w]? = some info') :
    ∃ info, threads[w]? = some info ∧ Touched k w pc pc' info info' :=
  ⟨info', here, rfl, rfl, .inl rfl, .inl ⟨rfl, fun inside => absurd inside (outside w)⟩⟩

/-- A call that changes one worker. -/
theorem touched_one {k : Job} {pc pc' : CallPc} {threads : List ThreadInfo} {place : Nat}
    {thread thread' : ThreadInfo} (there : threads[place]? = some thread)
    (outside : ∀ w, w ≠ place → ¬InOwn w pc)
    (touched : Touched k place pc pc' thread thread') (w : Nat) (info' : ThreadInfo)
    (here : (threads.set place thread')[w]? = some info') :
    ∃ info, threads[w]? = some info ∧ Touched k w pc pc' info info' := by
  obtain ⟨rfl, rfl⟩ | ⟨apart, same⟩ := found_of_set here
  · exact ⟨thread, there, touched⟩
  · exact ⟨info', same, rfl, rfl, .inl rfl,
      .inl ⟨rfl, fun inside => absurd inside (outside w apart)⟩⟩

theorem stepCall_advanced {pool pool' : Pool} {k : Job} (single : pool.single = false)
    (taken : stepCall pool k = some pool') :
    ∃ call call', pool.calls[k]? = some call ∧ Advanced k call call' pool pool' := by
  unfold stepCall at taken
  obtain ⟨call, here, taken⟩ := Option.bind_eq_some_iff.mp taken
  cases pc : call.pc with
  | test =>
    simp only [pc, single, Bool.false_eq_true, if_false, Option.some.injEq] at taken
    rw [← taken]
    refine ⟨call, { call with pc := .lockThreads }, here, rfl, rfl, rfl, untouched ?_, ?_, ?_, ?_⟩
    · simp [pc, InOwn]
    · simp [pc, callEffort]
    · simp [pc]
    · exact .inl ⟨rfl, by simp [pc, InThreads]⟩
  | lockThreads =>
    simp only [pc] at taken
    split at taken
    · cases taken
      refine ⟨call, { call with pc := .select }, here, rfl, rfl, rfl, untouched ?_, ?_, ?_, ?_⟩
      · simp [pc, InOwn]
      · simp [pc, callEffort]
      · simp [pc]
      · exact .inr (.inr ⟨rfl, trivial⟩)
    · cases taken
  | select =>
    simp only [pc] at taken
    cases taken
    refine ⟨call, { call with pc := .unlockThreads (nextIndex pool) }, here, rfl, rfl, rfl,
      untouched ?_, ?_, ?_, ?_⟩
    · simp [pc, InOwn]
    · simp [pc, callEffort]
    · simp [pc]
    · exact .inl ⟨rfl, fun _ => trivial⟩
  | unlockThreads info =>
    simp only [pc] at taken
    cases taken
    refine ⟨call, { call with pc := .lock info }, here, rfl, rfl, rfl, untouched ?_, ?_, ?_, ?_⟩
    · simp [pc, InOwn]
    · simp [pc, callEffort]
    · simp [pc]
    · exact .inr (.inl rfl)
  | lock info =>
    simp only [pc] at taken
    obtain ⟨thread, there, taken⟩ := Option.bind_eq_some_iff.mp taken
    split at taken
    · cases taken
      refine ⟨call, { call with pc := .push info }, here, rfl, rfl, List.length_set ..,
        touched_one there ?_ ⟨rfl, rfl, .inl rfl, .inr (.inr ⟨rfl, rfl⟩)⟩, ?_, ?_, ?_⟩
      · simp [pc, InOwn]
      · simp [pc, callEffort]
      · simp [pc]
      · exact .inl ⟨rfl, by simp [pc, InThreads]⟩
    · cases taken
  | push info =>
    simp only [pc] at taken
    obtain ⟨thread, there, taken⟩ := Option.bind_eq_some_iff.mp taken
    cases taken
    refine ⟨call, ⟨.unlock info, none⟩, here, rfl, rfl, List.length_set ..,
      touched_one there ?_ ⟨rfl, rfl, .inr ⟨pc, ?_⟩, .inl ⟨rfl, fun _ => rfl⟩⟩, ?_, ?_, ?_⟩
    · intro w apart inside
      rw [pc] at inside
      exact apart inside.symm
    · exact List.length_append
    · simp [pc, callEffort]
    · simp [pc, callEffort]
    · exact .inl ⟨rfl, by simp [pc, InThreads]⟩
  | unlock info =>
    simp only [pc] at taken
    obtain ⟨thread, there, taken⟩ := Option.bind_eq_some_iff.mp taken
    cases taken
    refine ⟨call, { call with pc := .returned }, here, rfl, rfl, List.length_set ..,
      touched_one there ?_ ⟨rfl, rfl, .inl rfl, .inr (.inl rfl)⟩, ?_, ?_, ?_⟩
    · intro w apart inside
      rw [pc] at inside
      exact apart inside.symm
    · simp [pc, callEffort]
    · simp [pc]
    · exact .inl ⟨rfl, by simp [pc, InThreads]⟩
  | returned =>
    simp only [pc] at taken
    cases taken

/-! ### The pool -/

/-- The holder of `m_threads_mutex` is in its critical section. -/
def HoldsThreads (pool : Pool) : Thread → Prop
  | .call k => ∃ call, pool.calls[k]? = some call ∧ InThreads call.pc
  | .worker w => ∃ info, pool.threads[w]? = some info ∧ info.pc = .checkWork

/-- The holder of a worker's mutex is in its critical section. -/
def HoldsOwn (pool : Pool) (w : Nat) : Thread → Prop
  | .call k => ∃ call, pool.calls[k]? = some call ∧ InOwn w call.pc
  | .worker v => v = w ∧ ∃ info, pool.threads[w]? = some info ∧ Inside info.pc

/-- What holds between the steps: the mutexes are held where the code holds them, and no worker
sleeps on a job. -/
structure Sane (waking : Waking) : Prop where
  inv : Inv waking.pool
  stop : waking.pool.stop = false
  stands : ∀ (w : Nat) (info : ThreadInfo), waking.pool.threads[w]? = some info → Stands info
  heard : ∀ (w : Nat) (info : ThreadInfo), waking.pool.threads[w]? = some info →
    info.pc = .wait → waking.woken w = false → info.buf = []
  threads : ∀ t, waking.pool.threadsMutex = some t → HoldsThreads waking.pool t
  mutex : ∀ (w : Nat) (info : ThreadInfo), waking.pool.threads[w]? = some info →
    ∀ t, info.mutex = some t → HoldsOwn waking.pool w t

theorem start_sane (n : Nat) (some_thread : 1 ≤ n) : Sane (start n) := by
  have entries : ∀ (w : Nat) (info : ThreadInfo), (start n).pool.threads[w]? = some info →
      info = .new (decide (w < 10)) := by
    intro w info here
    simp only [start, started_eq, List.getElem?_map, Option.map_eq_some_iff] at here
    obtain ⟨v, there, rfl⟩ := here
    obtain ⟨inside, rfl⟩ := List.getElem?_eq_some_iff.mp there
    simp
  refine ⟨started_inv n some_thread, ?_, ?_, ?_, ?_, ?_⟩
  · rw [start, started_eq]
    rfl
  · intro w info here
    rw [entries w info here]
    by_cases working : w < 10
    · simp [Stands, ThreadInfo.new, working]
    · simp [Stands, ThreadInfo.new, working]
  · intro w info here _ _
    rw [entries w info here]
    rfl
  · intro t held
    rw [start, started_eq] at held
    cases held
  · intro w info here t held
    rw [entries w info here] at held
    cases held

section Call
variable {k : Job} {call call' : Call} {pool pool' : Pool}

theorem Advanced.worker_exists (advanced : Advanced k call call' pool pool') {w : Nat}
    {info : ThreadInfo} (here : pool.threads[w]? = some info) :
    ∃ info', pool'.threads[w]? = some info' ∧ info'.pc = info.pc := by
  have inside := (List.getElem?_eq_some_iff.mp here).1
  rw [← advanced.length] at inside
  obtain ⟨info', there⟩ : ∃ info', pool'.threads[w]? = some info' :=
    ⟨_, List.getElem?_eq_getElem inside⟩
  obtain ⟨before, same, touched⟩ := advanced.workers w info' there
  cases here.symm.trans same
  exact ⟨info', there, touched.stays⟩

theorem Advanced.call_here (advanced : Advanced k call call' pool pool')
    (here : pool.calls[k]? = some call) : pool'.calls[k]? = some call' := by
  rw [advanced.calls, List.getElem?_set_self (List.getElem?_eq_some_iff.mp here).1]

theorem Advanced.holdsThreads (advanced : Advanced k call call' pool pool')
    (here : pool.calls[k]? = some call) {t : Thread} (held : HoldsThreads pool t)
    (keeps : InThreads call.pc → InThreads call'.pc) : HoldsThreads pool' t := by
  cases t with
  | call j =>
    obtain ⟨other, there, inside⟩ := held
    by_cases same : k = j
    · subst same
      cases here.symm.trans there
      exact ⟨call', advanced.call_here here, keeps inside⟩
    · exact ⟨other, by rw [advanced.calls, List.getElem?_set_ne same, there], inside⟩
  | worker w =>
    obtain ⟨info, there, inside⟩ := held
    obtain ⟨info', later, stays⟩ := advanced.worker_exists there
    exact ⟨info', later, stays.trans inside⟩

theorem Advanced.holdsOwn (advanced : Advanced k call call' pool pool')
    (here : pool.calls[k]? = some call) {w : Nat} {t : Thread} (held : HoldsOwn pool w t)
    (keeps : InOwn w call.pc → InOwn w call'.pc) : HoldsOwn pool' w t := by
  cases t with
  | call j =>
    obtain ⟨other, there, inside⟩ := held
    by_cases same : k = j
    · subst same
      cases here.symm.trans there
      exact ⟨call', advanced.call_here here, keeps inside⟩
    · exact ⟨other, by rw [advanced.calls, List.getElem?_set_ne same, there], inside⟩
  | worker v =>
    obtain ⟨own, info, there, inside⟩ := held
    obtain ⟨info', later, stays⟩ := advanced.worker_exists there
    exact ⟨own, info', later, stays ▸ inside⟩

theorem signal_false {woken : Nat → Bool} {w : Nat} (silent : signal pool woken k w = false) :
    woken w = false := by
  unfold signal at silent
  cases pushed : pushing pool k with
  | none => simpa only [pushed] using silent
  | some place =>
    simp only [pushed] at silent
    split at silent
    · by_cases same : w = place
      · rw [same, Function.update_self] at silent
        cases silent
      · rwa [Function.update_of_ne same] at silent
    · exact silent

/-- A push wakes the worker that waits for it. -/
theorem signal_pushed {woken : Nat → Bool} {w : Nat} {info : ThreadInfo}
    (here : pool.calls[k]? = some call) (pushes : call.pc = .push w)
    (there : pool.threads[w]? = some info) (waits : info.pc = .wait) :
    signal pool woken k w = true := by
  have pushed : pushing pool k = some w := by
    rw [pushing, here, Option.bind_some, pushes]
  simp [signal, pushed, there, waits]

end Call

theorem call_sane {waking next : Waking} {k : Job} (sane : Sane waking)
    (taken : step waking (.call k) = some next) : Sane next := by
  obtain ⟨pool', moved, rfl⟩ := Option.map_eq_some_iff.mp taken
  obtain ⟨call, call', here, advanced⟩ := stepCall_advanced sane.inv.single moved
  refine ⟨stepCall_inv sane.inv moved, advanced.stop.trans sane.stop, ?_, ?_, ?_, ?_⟩
  · intro w info' there
    obtain ⟨info, before, touched⟩ := advanced.workers w info' there
    have stands := sane.stands w info before
    have own := sane.inv.placement.chosen k call here
    have work := sane.inv.placement.work w ⟨info.work, info.placed⟩ (by
      rw [ledger_getElem?, before, Option.map_some])
    unfold Stands at stands ⊢
    rw [touched.work, touched.stays]
    cases flag : info.work with
    | true =>
      rw [flag] at stands
      exact stands
    | false =>
      rw [flag] at stands
      refine ⟨stands.1, ?_⟩
      obtain same | ⟨pushes, -⟩ := touched.buf
      · exact same.trans stands.2
      · have working := work.mpr (own w (by rw [pushes]; rfl))
        rw [flag] at working
        cases working
  · intro w info' there waits silent
    obtain ⟨info, before, touched⟩ := advanced.workers w info' there
    have waited := touched.stays.symm.trans waits
    obtain same | ⟨pushes, -⟩ := touched.buf
    · exact same.trans (sane.heard w info before waited (signal_false silent))
    · cases (signal_pushed here pushes before waited).symm.trans silent
  · intro t held
    obtain ⟨same, keeps⟩ | free | ⟨mine, inside⟩ := advanced.threads
    · exact advanced.holdsThreads here (sane.threads t (same.symm.trans held)) keeps
    · cases free.symm.trans held
    · cases mine.symm.trans held
      exact ⟨call', advanced.call_here here, inside⟩
  · intro w info' there t held
    obtain ⟨info, before, touched⟩ := advanced.workers w info' there
    obtain ⟨same, keeps⟩ | free | ⟨mine, inside⟩ := touched.mutex
    · exact advanced.holdsOwn here (sane.mutex w info before t (same.symm.trans held)) keeps
    · cases free.symm.trans held
    · cases mine.symm.trans held
      exact ⟨call', advanced.call_here here, inside⟩

theorem worker_sane {waking next : Waking} {w : Nat} (sane : Sane waking)
    (taken : step waking (.worker w) = some next) : Sane next ∧
      ∃ info info' threadsMutex, waking.pool.threads[w]? = some info ∧
        next = ⟨setThread { waking.pool with threadsMutex := threadsMutex } w info',
          Function.update waking.woken w false⟩ ∧
        Stepped w (waking.woken w) info info' waking.pool.threadsMutex threadsMutex := by
  simp only [step] at taken
  split at taken
  · cases taken
  · next rested =>
    obtain ⟨pool', moved, rfl⟩ := Option.map_eq_some_iff.mp taken
    have inv := stepWorker_inv sane.inv moved
    unfold stepWorker at moved
    obtain ⟨info, here, moved⟩ := Option.bind_eq_some_iff.mp moved
    obtain ⟨⟨threadsMutex, info'⟩, acted, moved⟩ := Option.bind_eq_some_iff.mp moved
    cases moved
    rw [sane.stop] at acted
    have awake : Parked info.pc → waking.woken w = true := by
      intro parked
      by_contra asleep
      exact rested ⟨info, here, parked, by simpa using asleep⟩
    have stepped := workerStep_stepped (sane.inv.workers info (List.mem_of_getElem? here))
      (sane.stands w info here) awake acted
    have later : (waking.pool.threads.set w info')[w]? = some info' :=
      List.getElem?_set_self (List.getElem?_eq_some_iff.mp here).1
    refine ⟨⟨inv, sane.stop, ?_, ?_, ?_, ?_⟩, info, info', threadsMutex, here, rfl, stepped⟩
    · intro v other there
      obtain ⟨rfl, rfl⟩ | ⟨apart, same⟩ := found_of_set there
      · exact stepped.stands
      · exact sane.stands v other same
    · intro v other there waits silent
      obtain ⟨rfl, rfl⟩ | ⟨apart, same⟩ := found_of_set there
      · exact stepped.heard waits
      · simp only [Function.update_of_ne apart] at silent
        exact sane.heard v other same waits silent
    · intro t held
      obtain ⟨same, outside⟩ | free | ⟨mine, inside⟩ := stepped.threads
      · have before := sane.threads t (same.symm.trans held)
        cases t with
        | call j => exact before
        | worker v =>
          obtain ⟨other, there, checks⟩ := before
          by_cases own : w = v
          · subst own
            cases here.symm.trans there
            exact absurd checks outside
          · exact ⟨other, (List.getElem?_set_ne own).trans there, checks⟩
      · cases free.symm.trans held
      · cases mine.symm.trans held
        exact ⟨info', later, inside⟩
    · intro v other there t held
      obtain ⟨rfl, rfl⟩ | ⟨apart, same⟩ := found_of_set there
      · obtain ⟨same, keeps⟩ | free | ⟨mine, inside⟩ := stepped.mutex
        · have before := sane.mutex v info here t (same.symm.trans held)
          cases t with
          | call j => exact before
          | worker u =>
            obtain ⟨own, old, there', within⟩ := before
            cases here.symm.trans there'
            exact ⟨own, other, later, keeps within⟩
        · cases free.symm.trans held
        · cases mine.symm.trans held
          exact ⟨rfl, other, later, inside⟩
      · have before := sane.mutex v other same t held
        cases t with
        | call j => exact before
        | worker u =>
          obtain ⟨own, old, there', within⟩ := before
          exact ⟨own, old, (List.getElem?_set_ne (Ne.symm apart)).trans there', within⟩

theorem addJob_sane {waking next : Waking} (sane : Sane waking)
    (taken : step waking .addJob = some next) : Sane next := by
  have inv := step_inv waking.pool .addJob next.pool sane.inv
  cases taken
  have still : ∀ (k : Nat) (call : Call), waking.pool.calls[k]? = some call →
      (waking.pool.calls ++ [⟨.test, some waking.pool.calls.length⟩])[k]? = some call := by
    intro k call here
    rw [List.getElem?_append_left (List.getElem?_eq_some_iff.mp here).1, here]
  refine ⟨inv rfl, sane.stop, sane.stands, sane.heard, ?_, ?_⟩
  · intro t held
    have before := sane.threads t held
    cases t with
    | call k =>
      obtain ⟨call, here, inside⟩ := before
      exact ⟨call, still k call here, inside⟩
    | worker w => exact before
  · intro w info here t held
    have before := sane.mutex w info here t held
    cases t with
    | call k =>
      obtain ⟨call, there, inside⟩ := before
      exact ⟨call, still k call there, inside⟩
    | worker v => exact before

theorem step_sane (waking : Waking) (event : Event) (next : Waking) (sane : Sane waking)
    (taken : step waking event = some next) : Sane next := by
  cases event with
  | addJob => exact addJob_sane sane taken
  | call k => exact call_sane sane taken
  | worker w => exact (worker_sane sane taken).1
  | spurious w =>
    simp only [step] at taken
    split at taken
    · cases taken
      refine ⟨sane.inv, sane.stop, sane.stands, ?_, sane.threads, sane.mutex⟩
      intro v info here waits silent
      by_cases same : v = w
      · simp only [same, Function.update_self] at silent
        cases silent
      · simp only [Function.update_of_ne same] at silent
        exact sane.heard v info here waits silent
    · cases taken

/-! ### The effort -/

def threadEffort (waking : Waking) (w : Nat) : Nat :=
  ((waking.pool.threads[w]?).map (workerEffort (waking.woken w))).getD 0

def jobEffort (waking : Waking) (k : Nat) : Nat :=
  ((waking.pool.calls[k]?).map fun call => callEffort call.pc).getD 0

/-- The steps that can still be taken without a new job or a wake-up for no reason. -/
def effort (waking : Waking) : Nat :=
  ∑ w ∈ Finset.range waking.pool.threads.length, threadEffort waking w +
    ∑ k ∈ Finset.range waking.pool.calls.length, jobEffort waking k

/-- What an event adds, itself included. -/
def gain : Event → Nat
  | .addJob => 18
  | .spurious _ => 4
  | _ => 0

theorem threadEffort_of {waking : Waking} {w : Nat} {info : ThreadInfo}
    (here : waking.pool.threads[w]? = some info) :
    threadEffort waking w = workerEffort (waking.woken w) info := by
  rw [threadEffort, here]
  rfl

theorem jobEffort_of {waking : Waking} {k : Nat} {call : Call}
    (here : waking.pool.calls[k]? = some call) : jobEffort waking k = callEffort call.pc := by
  rw [jobEffort, here]
  rfl

theorem mem_range_of {A : Type} {entries : List A} {k : Nat} {entry : A}
    (here : entries[k]? = some entry) : k ∈ Finset.range entries.length :=
  Finset.mem_range.mpr (List.getElem?_eq_some_iff.mp here).1

theorem pcEffort_le (woken : Bool) (pc : WorkerPc) : pcEffort woken pc ≤ pcEffort false pc + 3 := by
  cases pc <;> cases woken <;> simp [pcEffort]

theorem signal_of_ne {pool : Pool} {woken : Nat → Bool} {k : Job} {call : Call} {w : Nat}
    (here : pool.calls[k]? = some call) (elsewhere : call.pc ≠ .push w) :
    signal pool woken k w = woken w := by
  have pushed : pushing pool k = some w → False := by
    intro same
    simp only [pushing, here, Option.bind_some] at same
    split at same
    · next info pushes =>
      cases same
      exact elsewhere pushes
    · cases same
  unfold signal
  cases found : pushing pool k with
  | none => rfl
  | some place =>
    have apart : w ≠ place := by
      rintro rfl
      exact pushed found
    simp only
    split
    · rw [Function.update_of_ne apart]
    · rfl

theorem call_spends {waking next : Waking} {k : Job} (sane : Sane waking)
    (taken : step waking (.call k) = some next) : effort next + 1 ≤ effort waking := by
  obtain ⟨pool', moved, rfl⟩ := Option.map_eq_some_iff.mp taken
  obtain ⟨call, call', here, advanced⟩ := stepCall_advanced sane.inv.single moved
  generalize later : (⟨pool', signal waking.pool waking.woken k⟩ : Waking) = next
  have pool : next.pool = pool' := by rw [← later]
  have woken : next.woken = signal waking.pool waking.woken k := by rw [← later]
  have calls := sum_change (Finset.range waking.pool.calls.length) (jobEffort waking)
    (jobEffort next) (mem_range_of here) (by
      intro other _ apart
      rw [jobEffort, jobEffort, pool, advanced.calls, List.getElem?_set_ne (Ne.symm apart)])
  have jobAfter : jobEffort next k = callEffort call'.pc := jobEffort_of (by
    rw [pool]
    exact advanced.call_here here)
  rw [jobEffort_of here, jobAfter] at calls
  have sizes : next.pool.calls.length = waking.pool.calls.length := by
    rw [pool, advanced.calls, List.length_set]
  have threads : next.pool.threads.length = waking.pool.threads.length := by
    rw [pool, advanced.length]
  have calm : ∀ w, call.pc ≠ .push w → threadEffort next w = threadEffort waking w := by
    intro w elsewhere
    cases there : next.pool.threads[w]? with
    | none =>
      have outside := List.getElem?_eq_none_iff.mp there
      rw [threads] at outside
      rw [threadEffort, threadEffort, there, List.getElem?_eq_none outside]
      rfl
    | some info' =>
      rw [pool] at there
      obtain ⟨info, before, touched⟩ := advanced.workers w info' there
      obtain same | ⟨pushes, -⟩ := touched.buf
      · rw [← pool] at there
        rw [threadEffort_of there, threadEffort_of before, workerEffort, workerEffort,
          same, touched.stays, woken, signal_of_ne here elsewhere]
      · exact absurd pushes elsewhere
  unfold effort
  rw [sizes, threads]
  by_cases pushes : ∃ w, call.pc = .push w ∧ w < waking.pool.threads.length
  · obtain ⟨w, pushes, inside⟩ := pushes
    have changed := sum_change (Finset.range waking.pool.threads.length) (threadEffort waking)
      (threadEffort next) (Finset.mem_range.mpr inside) (by
        intro other _ apart
        refine calm other fun same => apart ?_
        rw [pushes] at same
        cases same
        rfl)
    have inside' : w < pool'.threads.length := by rw [advanced.length]; exact inside
    have there : pool'.threads[w]? = some pool'.threads[w] := List.getElem?_eq_getElem inside'
    obtain ⟨info, before, touched⟩ := advanced.workers w _ there
    have grown : workerEffort (next.woken w) pool'.threads[w] ≤
        workerEffort (waking.woken w) info + 10 := by
      have most := pcEffort_le (next.woken w) info.pc
      have least := pcEffort_le false info.pc
      have more : pcEffort false info.pc ≤ pcEffort (waking.woken w) info.pc := by
        cases info.pc <;> cases waking.woken w <;> simp [pcEffort]
      rw [workerEffort, workerEffort, touched.stays]
      obtain same | ⟨-, longer⟩ := touched.buf
      · rw [same]
        omega
      · rw [longer]
        omega
    have threadAfter : threadEffort next w = workerEffort (next.woken w) pool'.threads[w] :=
      threadEffort_of (by
        rw [pool]
        exact there)
    rw [threadEffort_of before, threadAfter] at changed
    have spent := advanced.pushed w pushes
    omega
  · have same : ∑ w ∈ Finset.range waking.pool.threads.length, threadEffort next w =
        ∑ w ∈ Finset.range waking.pool.threads.length, threadEffort waking w :=
      Finset.sum_congr rfl fun w inside => calm w fun pushed =>
        pushes ⟨w, pushed, Finset.mem_range.mp inside⟩
    have spent := advanced.spent
    omega

theorem worker_spends {waking next : Waking} {w : Nat} (sane : Sane waking)
    (taken : step waking (.worker w) = some next) : effort next + 1 ≤ effort waking := by
  obtain ⟨-, info, info', threadsMutex, here, rfl, stepped⟩ := worker_sane sane taken
  have changed := sum_change (Finset.range waking.pool.threads.length) (threadEffort waking)
    (threadEffort ⟨setThread { waking.pool with threadsMutex := threadsMutex } w info',
      Function.update waking.woken w false⟩) (mem_range_of here) (by
      intro other _ apart
      simp only [threadEffort, setThread, List.getElem?_set_ne (Ne.symm apart),
        Function.update_of_ne apart])
  have later : (setThread { waking.pool with threadsMutex := threadsMutex } w info').threads[w]? =
      some info' := List.getElem?_set_self (List.getElem?_eq_some_iff.mp here).1
  have after : threadEffort ⟨setThread { waking.pool with threadsMutex := threadsMutex } w info',
      Function.update waking.woken w false⟩ w = workerEffort false info' := by
    rw [threadEffort_of later]
    simp only [Function.update_self]
  rw [threadEffort_of here, after] at changed
  have spent := stepped.spent
  unfold effort
  simp only [setThread, List.length_set] at changed ⊢
  simp only [jobEffort] at changed ⊢
  omega

theorem step_spends (waking : Waking) (event : Event) (next : Waking) (sane : Sane waking)
    (taken : step waking event = some next) : effort next + 1 ≤ effort waking + gain event := by
  cases event with
  | call k => exact call_spends sane taken
  | worker w => exact worker_spends sane taken
  | addJob =>
    cases taken
    have before : ∑ k ∈ Finset.range waking.pool.calls.length, jobEffort
        ⟨{ waking.pool with calls := waking.pool.calls ++
          [⟨.test, some waking.pool.calls.length⟩] }, waking.woken⟩ k =
        ∑ k ∈ Finset.range waking.pool.calls.length, jobEffort waking k := by
      refine Finset.sum_congr rfl fun k inside => ?_
      rw [jobEffort, jobEffort, List.getElem?_append_left (Finset.mem_range.mp inside)]
    simp only [effort, List.length_append, List.length_singleton, Finset.sum_range_succ, gain]
    rw [before, jobEffort_of (List.getElem?_concat_length ..)]
    simp only [callEffort, threadEffort]
    omega
  | spurious w =>
    simp only [step] at taken
    split at taken
    · next asleep =>
      obtain ⟨info, here, parked, silent⟩ := asleep
      cases taken
      have changed := sum_change (Finset.range waking.pool.threads.length) (threadEffort waking)
        (threadEffort { waking with woken := Function.update waking.woken w true })
        (mem_range_of here) (by
          intro other _ apart
          simp only [threadEffort, Function.update_of_ne apart])
      have after : threadEffort { waking with woken := Function.update waking.woken w true } w =
          workerEffort true info := by
        simp only [threadEffort, here, Option.map_some, Option.getD_some, Function.update_self]
      have most := pcEffort_le true info.pc
      rw [threadEffort_of here, after, silent, workerEffort, workerEffort] at changed
      simp only [effort, gain]
      simp only [jobEffort] at changed ⊢
      omega
    · cases taken

theorem start_effort (n : Nat) : effort (start n) = 4 * n := by
  have terms : ∀ w ∈ Finset.range n, threadEffort (start n) w = 4 := by
    intro w inside
    have here : (start n).pool.threads[w]? = some (.new (decide (w < 10))) := by
      simp only [start, started_eq, List.getElem?_map]
      rw [List.getElem?_range' (Finset.mem_range.mp inside)]
      simp
    rw [threadEffort_of here]
    rfl
  have size : (start n).pool.threads.length = n := by
    simp only [start, started_eq, List.length_map, List.length_range']
  have calls : (start n).pool.calls = [] := by
    rw [start, started_eq]
    rfl
  rw [effort, size, Finset.sum_congr rfl terms, calls, Finset.sum_const, Finset.card_range,
    Nat.nsmul_eq_mul, List.length_nil, Finset.sum_range_zero]
  omega

/-! ### The end -/

/-- No thread can go on. -/
def Quiet (waking : Waking) : Prop :=
  (∀ k, step waking (.call k) = none) ∧ ∀ w, step waking (.worker w) = none

theorem quiet_iff (waking : Waking) : Quiet waking ↔
    (∀ k < waking.pool.calls.length, (step waking (.call k)).isNone = true) ∧
      ∀ w < waking.pool.threads.length, (step waking (.worker w)).isNone = true := by
  simp only [Option.isNone_iff_eq_none]
  constructor
  · exact fun quiet => ⟨fun k _ => quiet.1 k, fun w _ => quiet.2 w⟩
  · intro inside
    refine ⟨fun k => ?_, fun w => ?_⟩
    · by_cases called : k < waking.pool.calls.length
      · exact inside.1 k called
      · have absent := List.getElem?_eq_none (Nat.not_lt.mp called)
        simp [step, stepCall, absent]
    · by_cases there : w < waking.pool.threads.length
      · exact inside.2 w there
      · have absent := List.getElem?_eq_none (Nat.not_lt.mp there)
        simp [step, stepWorker, absent]

instance decidableQuiet (waking : Waking) : Decidable (Quiet waking) :=
  decidable_of_iff _ (quiet_iff waking).symm

section Quiet
variable {waking : Waking} (sane : Sane waking) (quiet : Quiet waking)
include sane quiet

theorem quiet_threads : waking.pool.threadsMutex = none := by
  cases held : waking.pool.threadsMutex with
  | none => rfl
  | some t =>
    have holds := sane.threads t held
    cases t with
    | call k =>
      obtain ⟨call, here, inside⟩ := holds
      have stuck := quiet.1 k
      simp only [step, Option.map_eq_none_iff, stepCall, here, Option.bind_eq_bind,
        Option.bind_some] at stuck
      cases pc : call.pc <;> simp [pc, InThreads] at stuck inside
    | worker w =>
      obtain ⟨info, here, checks⟩ := holds
      have stuck := quiet.2 w
      have awake : ¬Asleep waking w := by
        rintro ⟨other, there, parked, -⟩
        cases here.symm.trans there
        simp [checks, Parked] at parked
      simp only [step, if_neg awake, Option.map_eq_none_iff, stepWorker, here, Option.bind_eq_bind,
        Option.bind_some, workerStep, checks] at stuck
      split at stuck <;> cases stuck

theorem quiet_worker {w : Nat} {info : ThreadInfo} (here : waking.pool.threads[w]? = some info) :
    info.mutex = none ∧ Parked info.pc ∧ waking.woken w = false := by
  have free := quiet_threads sane quiet
  have stands := sane.stands w info here
  have inv := sane.inv.workers info (List.mem_of_getElem? here)
  have stuck : ∀ info', waking.pool.threads[w]? = some info' → ¬Asleep waking w →
      workerStep w false none info' = none := by
    intro info' there awake
    have none_left := quiet.2 w
    simp only [step, if_neg awake, Option.map_eq_none_iff, stepWorker, there, Option.bind_eq_bind,
      Option.bind_some, Option.bind_eq_none_iff, sane.stop, free] at none_left
    cases acted : workerStep w false none info' with
    | none => rfl
    | some result => cases none_left result acted
  have awake_of : ¬Parked info.pc → ¬Asleep waking w := by
    rintro runs ⟨other, there, parked, -⟩
    cases here.symm.trans there
    exact runs parked
  have outside : ¬Inside info.pc := by
    intro inside
    have awake := awake_of (by
      generalize info.pc = pc at inside
      cases pc <;> simp [Inside, Parked] at inside ⊢)
    have none_left := stuck info here awake
    unfold workerStep at none_left
    cases pc : info.pc <;> simp [Inside, pc] at inside
    · simp only [pc] at none_left
      split at none_left <;> cases none_left
    · simp only [pc] at none_left
      split at none_left
      · next empty => exact inv.waiting pc empty
      · cases none_left
    · simp [pc] at none_left
    · simp [pc] at none_left
  have unlocked : info.mutex = none := by
    cases held : info.mutex with
    | none => rfl
    | some t =>
      have holds := sane.mutex w info here t held
      cases t with
      | call k =>
        obtain ⟨call, there, inside⟩ := holds
        have none_left := quiet.1 k
        simp only [step, Option.map_eq_none_iff, stepCall, there, Option.bind_eq_bind,
          Option.bind_some] at none_left
        cases pc : call.pc <;> simp only [pc, InOwn] at inside
        · subst inside
          simp [pc, here] at none_left
        · subst inside
          simp [pc, here] at none_left
      | worker v =>
        obtain ⟨rfl, other, there, inside⟩ := holds
        cases here.symm.trans there
        exact absurd inside outside
  refine ⟨unlocked, ?_⟩
  by_contra runs
  have awake : ¬Asleep waking w := by
    rintro ⟨other, there, both⟩
    cases here.symm.trans there
    exact runs both
  have none_left := stuck info here awake
  unfold workerStep at none_left
  cases pc : info.pc with
  | test =>
    simp only [pc, Bool.false_eq_true, if_false] at none_left
    split at none_left <;> cases none_left
  | lockThreads | waitThreads | lock | wait => simp [pc, unlocked] at none_left
  | checkWork =>
    simp only [pc] at none_left
    split at none_left <;> cases none_left
  | checkEmpty | front | pop | unlock => exact outside (by simp [Inside, pc])
  | unlockThreads | exited => simp [Stands, pc] at stands
  | getData => simp [pc] at none_left

theorem quiet_returned {k : Nat} {call : Call} (here : waking.pool.calls[k]? = some call) :
    call.pc = .returned := by
  have free := quiet_threads sane quiet
  have none_left := quiet.1 k
  have chosen := sane.inv.placement.chosen k call here
  have bound := sane.inv.bound
  have single := sane.inv.single
  simp only [step, Option.map_eq_none_iff, stepCall, here, Option.bind_eq_bind,
    Option.bind_some] at none_left
  have worker : ∀ w, System.Jobs.chosen call.pc = some w → ∃ info,
      waking.pool.threads[w]? = some info ∧ info.mutex = none := by
    intro w chooses
    have inside := (chosen w chooses).trans_le bound
    exact ⟨_, List.getElem?_eq_getElem inside,
      (quiet_worker sane quiet (List.getElem?_eq_getElem inside)).1⟩
  cases pc : call.pc with
  | test => simp [pc, single] at none_left
  | lockThreads => simp [pc, free] at none_left
  | select => simp [pc] at none_left
  | unlockThreads info => simp [pc] at none_left
  | lock info =>
    obtain ⟨thread, there, unlocked⟩ := worker info (by rw [pc]; rfl)
    simp [pc, there, unlocked] at none_left
  | push info =>
    obtain ⟨thread, there, unlocked⟩ := worker info (by rw [pc]; rfl)
    simp [pc, there] at none_left
  | unlock info =>
    obtain ⟨thread, there, unlocked⟩ := worker info (by rw [pc]; rfl)
    simp [pc, there] at none_left
  | returned => rfl

/-- What a worker had to do is done. -/
theorem quiet_empty {w : Nat} {info : ThreadInfo} (here : waking.pool.threads[w]? = some info) :
    info.buf = [] ∧ info.context = none := by
  obtain ⟨-, parked, silent⟩ := quiet_worker sane quiet here
  have inv := sane.inv.workers info (List.mem_of_getElem? here)
  have stands := sane.stands w info here
  cases pc : info.pc with
  | wait => exact ⟨sane.heard w info here pc silent, inv.idle pc (by decide)⟩
  | waitThreads => exact ⟨(stands.resting (by simp [pc])).2, inv.idle pc (by decide)⟩
  | _ => simp [pc, Parked] at parked

theorem quiet_handed {job : Job} (called : job < waking.pool.calls.length) :
    ∃ w, (jobsAt waking.pool (.handed w)).count job = 1 ∧
      ∀ other, other ≠ .handed w → (jobsAt waking.pool other).count job = 0 := by
  have here : waking.pool.calls[job]? = some waking.pool.calls[job] :=
    List.getElem?_eq_getElem called
  have gone : ∀ (k : Nat) (call : Call), waking.pool.calls[k]? = some call → ¬Carries call.pc := by
    intro k call there carries
    rw [quiet_returned sane quiet there] at carries
    exact carries
  obtain ⟨place, once, elsewhere⟩ := exactlyOnce_placed sane.inv here (gone job _ here)
  cases place with
  | handed w => exact ⟨w, once, elsewhere⟩
  | direct =>
    simp only [jobsAt, sane.inv.direct] at once
    cases once
  | call k =>
    cases there : waking.pool.calls[k]? with
    | none =>
      simp only [jobsAt, there] at once
      cases once
    | some call =>
      have emptied := (sane.inv.placement.emptied k call there (gone k call there)).1
      simp only [jobsAt, there, Option.map_some, emptied] at once
      cases once
  | queue w =>
    cases there : waking.pool.threads[w]? with
    | none =>
      simp only [jobsAt, there] at once
      cases once
    | some info =>
      simp only [jobsAt, there, Option.map_some, (quiet_empty sane quiet there).1] at once
      cases once
  | taken w =>
    cases there : waking.pool.threads[w]? with
    | none =>
      simp only [jobsAt, there] at once
      cases once
    | some info =>
      simp only [jobsAt, there, Option.map_some, (quiet_empty sane quiet there).2] at once
      cases once

end Quiet

/-- Under every scheduling a run is at most four steps for each thread, seventeen for each job
and three for each wake-up without a reason; and where no thread can go on, every job has been
handed over, once. In between no worker sleeps with a job on its queue. -/
theorem every_job_runs (n : Nat) (some_thread : 1 ≤ n) (events : List Event) (waking : Waking)
    (reached : run step (start n) events = some waking) :
    events.length ≤ 4 * n + (events.map gain).sum ∧
      (Quiet waking → ∀ job < waking.pool.calls.length,
        ∃ w, (jobsAt waking.pool (.handed w)).count job = 1 ∧
          ∀ other, other ≠ .handed w → (jobsAt waking.pool other).count job = 0) ∧
      ∀ (w : Nat) (info : ThreadInfo), waking.pool.threads[w]? = some info → info.pc = .wait →
        waking.woken w = false → info.buf = [] := by
  have sane := run_invariant Sane step_sane (start_sane n some_thread) reached
  have length := length_le_of_spends Sane effort gain step_sane step_spends
    (start_sane n some_thread) reached
  rw [start_effort] at length
  exact ⟨by omega, fun quiet job called => quiet_handed sane quiet called, sane.heard⟩

/-- A worker that waits is woken for a job, hands it over and waits again. -/
def oneJob : List Event :=
  List.replicate 3 (.worker 0) ++ [.addJob] ++ List.replicate 7 (.call 0) ++
    List.replicate 9 (.worker 0)

theorem every_job_runs_one :
    ∃ waking, run step (start 1) oneJob = some waking ∧ waking.pool.calls.length = 1 ∧
      oneJob.length ≤ 4 * 1 + (oneJob.map gain).sum ∧
      ∀ job < waking.pool.calls.length, ∃ w, (jobsAt waking.pool (.handed w)).count job = 1 ∧
        ∀ other, other ≠ .handed w → (jobsAt waking.pool other).count job = 0 := by
  have returns : (run step (start 1) oneJob).map (fun waking =>
      (waking.pool.calls.length, decide (Quiet waking))) = some (1, true) := by
    decide +kernel
  obtain ⟨waking, reached, fields⟩ := Option.map_eq_some_iff.mp returns
  simp only [Prod.mk.injEq, decide_eq_true_eq] at fields
  obtain ⟨short, handed, -⟩ := every_job_runs 1 (by decide) oneJob waking reached
  exact ⟨waking, reached, fields.1, short, handed fields.2⟩

end SNFrame.System.Draining
