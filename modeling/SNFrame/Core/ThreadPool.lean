import Mathlib.Algebra.Ring.Int.Defs
import Mathlib.Algebra.Ring.Nat
import Mathlib.Data.List.Basic

/-! The class ThreadPool. Its threads are a list, each with its queue, its mutex and the place
where it stands in `run(void*)`; the calls of `addJob` are a list too, a job being the number
of its call. A step is one statement of one thread, where a statement that only its thread can
observe, or that stands inside a critical section, may be joined with its neighbours. Waiting
on a condition ends at any moment at which the mutex is free, which covers every signal and
every spurious return. -/

namespace SNFrame.Core.ThreadPool

abbrev Job := Nat

/-- A `context_t`: none once its message has been moved out. -/
abbrev Context := Option Job

inductive Thread where
  | call (job : Job)
  | worker (w : Nat)
  deriving DecidableEq, Repr

/-- Where a worker stands in `run(void*)`. -/
inductive WorkerPc where
  | test
  | lockThreads
  | checkWork
  | waitThreads
  | unlockThreads
  | lock
  | checkEmpty
  | wait
  | front
  | pop
  | unlock
  | getData
  | exited
  deriving DecidableEq, Repr

/-- The struct thread_info with its thread: `context` is the local variable of `run(void*)`.
The two histories are the jobs pushed on `m_buf` and those the thread gave to `getData`. -/
structure ThreadInfo where
  work : Bool
  buf : List Context
  mutex : Option Thread
  pc : WorkerPc
  context : Context
  placed : List Job
  handed : List Job
  deriving DecidableEq, Repr

/-- Where a call of `addJob` stands; `info` is an entry of `m_threads_vct`. -/
inductive CallPc where
  | test
  | lockThreads
  | select
  | unlockThreads (info : Nat)
  | lock (info : Nat)
  | push (info : Nat)
  | unlock (info : Nat)
  | returned
  deriving DecidableEq, Repr

structure Call where
  pc : CallPc
  context : Context
  deriving DecidableEq, Repr

/-- The class ThreadPool, with the calls of `addJob` and the jobs that such calls gave to
`getData` themselves. -/
structure Pool where
  single : Bool
  stop : Bool
  maxThreads : Nat
  minThreads : Nat
  gradient : Nat
  index : Nat
  workingNum : Nat
  threads : List ThreadInfo
  threadsMutex : Option Thread
  calls : List Call
  direct : List Job
  deriving DecidableEq, Repr

/-- Arithmetic of `unsigned int`. -/
def wrap (n : Nat) : Nat := n % 2 ^ 32

def Pool.new : Pool := ⟨false, false, 0, 0, 0, 0, 0, [], none, [], []⟩

/-- `ThreadPool::init`: the lowered `min_threads` is the parameter, not the member. -/
def init (maxThreads minThreads value : Nat) (single : Bool) : Pool :=
  { Pool.new with
    maxThreads := maxThreads
    minThreads := minThreads
    gradient := if maxThreads < minThreads then 1 else value
    single := single }

def ThreadInfo.new (work : Bool) : ThreadInfo := ⟨work, [], none, .test, none, [], []⟩

/-- The body of the loop of `create_threads`. -/
def createThread (pool : Pool) : Pool :=
  let work := decide (pool.threads.length < pool.minThreads)
  { pool with
    workingNum := if work then wrap (pool.workingNum + 1) else pool.workingNum
    threads := pool.threads ++ [.new work] }

def createThreads : Nat → Pool → Pool
  | 0, pool => pool
  | num + 1, pool => createThreads num (createThread pool)

/-- The first `min_threads` of the threads are working ones. -/
theorem createThreads_eq (num : Nat) (pool : Pool)
    (counted : pool.workingNum = min pool.threads.length pool.minThreads)
    (small : pool.minThreads < 2 ^ 32) :
    createThreads num pool = { pool with
      workingNum := min (pool.threads.length + num) pool.minThreads
      threads := pool.threads ++
        (List.range' pool.threads.length num).map fun w => .new (decide (w < pool.minThreads)) } := by
  induction num generalizing pool with
  | zero =>
    simp only [createThreads, Nat.add_zero, ← counted, List.range'_zero, List.map_nil,
      List.append_nil]
  | succ num ih =>
    have counted' : (createThread pool).workingNum =
        min (createThread pool).threads.length (createThread pool).minThreads := by
      by_cases working : pool.threads.length < pool.minThreads
      · simp only [createThread, working, decide_true, if_true, wrap, List.length_append,
          List.length_singleton, counted]
        omega
      · simp only [createThread, working, decide_false, Bool.false_eq_true, if_false,
          List.length_append, List.length_singleton, counted]
        omega
    rw [createThreads, ih (createThread pool) counted' small]
    simp only [createThread, List.length_append, List.length_singleton, List.range'_succ,
      List.map_cons, List.append_assoc, List.singleton_append, Nat.add_assoc, Nat.add_comm 1 num]
    rfl

/-- Threads beyond the first `min_threads` are created asleep. -/
theorem createThreads_asleep (num : Nat) (pool : Pool)
    (full : pool.minThreads ≤ pool.threads.length) :
    createThreads num pool =
      { pool with threads := pool.threads ++ List.replicate num (.new false) } := by
  induction num generalizing pool with
  | zero => simp only [createThreads, List.replicate_zero, List.append_nil]
  | succ num ih =>
    have asleep : ¬pool.threads.length < pool.minThreads := by omega
    have created : createThread pool =
        { pool with threads := pool.threads ++ [.new false] } := by
      simp only [createThread, asleep, decide_false, Bool.false_eq_true, if_false]
    rw [createThreads, created, ih _ (by simp only [List.length_append]; omega)]
    simp only [List.append_assoc, List.replicate_succ, List.singleton_append]

def start (automatic : Bool) (pool : Pool) : Pool :=
  if automatic then
    createThreads (if pool.maxThreads > pool.minThreads then pool.minThreads
      else pool.maxThreads) pool
  else createThreads pool.maxThreads pool

def setThread (pool : Pool) (w : Nat) (info : ThreadInfo) : Pool :=
  { pool with threads := pool.threads.set w info }

def setCall (pool : Pool) (job : Job) (call : Call) : Pool :=
  { pool with calls := pool.calls.set job call }

/-! ### `addJob` -/

/-- `++m_index >= m_working_num`: back to the first thread. -/
def nextIndex (pool : Pool) : Nat :=
  if wrap (pool.index + 1) ≥ pool.workingNum then 0 else wrap (pool.index + 1)

/-- The next statement of a call. -/
def stepCall (pool : Pool) (job : Job) : Option Pool := do
  let call ← pool.calls[job]?
  match call.pc with
  | .test =>
      if pool.single then
        some (setCall { pool with direct := pool.direct ++ call.context.toList } job
          ⟨.returned, none⟩)
      else some (setCall pool job { call with pc := .lockThreads })
  | .lockThreads =>
      if pool.threadsMutex = none then
        some (setCall { pool with threadsMutex := some (.call job) } job { call with pc := .select })
      else none
  | .select =>
      let index := nextIndex pool
      some (setCall { pool with index := index } job { call with pc := .unlockThreads index })
  | .unlockThreads info =>
      some (setCall { pool with threadsMutex := none } job { call with pc := .lock info })
  | .lock info =>
      let thread ← pool.threads[info]?
      if thread.mutex = none then
        some (setCall (setThread pool info { thread with mutex := some (.call job) }) job
          { call with pc := .push info })
      else none
  | .push info =>
      let thread ← pool.threads[info]?
      some (setCall (setThread pool info
        { thread with
          buf := thread.buf ++ [call.context]
          placed := thread.placed ++ call.context.toList }) job ⟨.unlock info, none⟩)
  | .unlock info =>
      let thread ← pool.threads[info]?
      some (setCall (setThread pool info { thread with mutex := none }) job
        { call with pc := .returned })
  | .returned => none

/-! ### `run(void*)` -/

/-- What a worker's next statement does to `m_threads_mutex` and to its own thread_info. -/
def workerStep (w : Nat) (stop : Bool) (threadsMutex : Option Thread) (info : ThreadInfo) :
    Option (Option Thread × ThreadInfo) :=
  match info.pc with
  | .test =>
      if stop then some (threadsMutex, { info with pc := .exited })
      else if ¬info.work ∧ info.buf = [] then some (threadsMutex, { info with pc := .lockThreads })
      else some (threadsMutex, { info with pc := .lock })
  | .lockThreads | .waitThreads =>
      if threadsMutex = none then some (some (.worker w), { info with pc := .checkWork })
      else none
  | .checkWork =>
      if ¬info.work then some (none, { info with pc := .waitThreads })
      else some (threadsMutex, { info with pc := .unlockThreads })
  | .unlockThreads => some (none, { info with pc := if stop then .exited else .lock })
  | .lock | .wait =>
      if info.mutex = none then
        some (threadsMutex, { info with mutex := some (.worker w), pc := .checkEmpty })
      else none
  | .checkEmpty =>
      if info.buf = [] then some (threadsMutex, { info with mutex := none, pc := .wait })
      else some (threadsMutex, { info with pc := .front })
  | .front =>
      match info.buf with
      | [] => none
      | front :: rest =>
          some (threadsMutex, { info with context := front, buf := none :: rest, pc := .pop })
  | .pop => some (threadsMutex, { info with buf := info.buf.tail, pc := .unlock })
  | .unlock => some (threadsMutex, { info with mutex := none, pc := .getData })
  | .getData =>
      some (threadsMutex, { info with
        handed := info.handed ++ info.context.toList
        context := none
        pc := .test })
  | .exited => none

def stepWorker (pool : Pool) (w : Nat) : Option Pool := do
  let info ← pool.threads[w]?
  let done ← workerStep w pool.stop pool.threadsMutex info
  some (setThread { pool with threadsMutex := done.1 } w done.2)

/-- A new call of `addJob`, the next statement of a call or of a worker, or `stop`. -/
inductive Event where
  | addJob
  | call (job : Job)
  | worker (w : Nat)
  | stop
  deriving DecidableEq, Repr

def step (pool : Pool) : Event → Option Pool
  | .addJob =>
      some { pool with calls := pool.calls ++ [⟨.test, some pool.calls.length⟩] }
  | .call job => stepCall pool job
  | .worker w => stepWorker pool w
  | .stop => some { pool with stop := true }

/-! ### `run()` -/

/-- The scaling loop's view: the pool and `static unsigned int temp`, which has no value before
the first pass. -/
structure Scaling where
  pool : Pool
  temp : Option (BitVec 32)

/-- The body of the growing loop. -/
def growAt (pool : Pool) (i : Nat) : Option Pool := do
  let info ← pool.threads[i]?
  if info.work = false then
    some { setThread pool i { info with work := true } with
      workingNum := wrap (pool.workingNum + 1) }
  else some pool

/-- `unsigned int temp_num`. -/
def grow (pool : Pool) : Option Pool :=
  if pool.threads.length > pool.workingNum then
    let tempNum := pool.workingNum
    let bound := if pool.threads.length - tempNum > pool.gradient then
      wrap (tempNum + pool.gradient) else pool.threads.length
    (List.range' tempNum (bound - tempNum)).foldlM growAt pool
  else some pool

/-- The body of the shrinking loop. -/
def shrinkAt (pool : Pool) (i : Nat) : Option Pool := do
  let info ← pool.threads[i]?
  some { setThread pool i { info with work := false } with
    workingNum := wrap (pool.workingNum + (2 ^ 32 - 1)) }

/-- `int temp_num`: the difference to `size()` is taken in 64 bits. -/
def shrink (pool : Pool) : Option Pool :=
  let tempNum : Int := (BitVec.ofNat 32 pool.workingNum).toInt
  let first := pool.workingNum
  let bound := if ((pool.threads.length : Int) - tempNum) % 2 ^ 64 > pool.gradient then
    wrap (first + pool.gradient) else pool.threads.length
  (List.range' first (bound - first)).foldlM shrinkAt pool

/-- The load has moved by enough, in either direction. -/
def trend (load temp : BitVec 32) : Bool := (load - temp).toNat % 100 > 3

def growing (load temp : BitVec 32) : Bool :=
  (trend load temp && decide (load > temp)) || decide (load.toNat > 50000)

def shrinking (pool : Pool) (load temp : BitVec 32) : Bool :=
  trend load temp && decide (load.toNat < 10000) && decide (load < temp) &&
    decide (pool.workingNum > pool.minThreads)

def scaleUp (load temp : BitVec 32) (pool : Pool) : Option Pool :=
  if growing load temp then grow pool else some pool

def scaleDown (load temp : BitVec 32) (pool : Pool) : Option Pool :=
  if shrinking pool load temp then shrink pool else some pool

/-- One pass of the loop of `run()`; `load` is the number of queued jobs that it counts. -/
def scale (loop : Scaling) (load : BitVec 32) : Option Scaling :=
  let temp := loop.temp.getD load
  let pool := loop.pool
  if pool.maxThreads > pool.threads.length then
    let missing := pool.maxThreads - pool.threads.length
    some ⟨createThreads (if missing > pool.minThreads then pool.minThreads else missing) pool,
      some temp⟩
  else ((scaleUp load temp pool).bind (scaleDown load temp)).map fun pool => ⟨pool, some load⟩

end SNFrame.Core.ThreadPool
