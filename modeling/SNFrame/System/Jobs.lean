import Mathlib.Data.List.Nodup
import SNFrame.Core.ThreadPool
import SNFrame.Library.Transition

/-! Every job is handed over once. A job leaves its call for the queue of one worker, and each
worker hands over what was placed on its queue, in the order in which it was placed. -/

namespace SNFrame.System.Jobs
open Library.Transition Core.ThreadPool

/-- Where a job may be: with a call of `addJob`, on the queue of a worker, in its local
variable, handed over by it, or handed over by a call itself. -/
inductive Place where
  | call (k : Nat)
  | queue (w : Nat)
  | taken (w : Nat)
  | handed (w : Nat)
  | direct
  deriving DecidableEq, Repr

/-- What a list of contexts carries. -/
def carried (contexts : List Context) : List Job := contexts.filterMap id

/-- The jobs at a place. -/
def jobsAt (pool : Pool) : Place → List Job
  | .call k => ((pool.calls[k]?).map fun call => call.context.toList).getD []
  | .queue w => ((pool.threads[w]?).map fun info => carried info.buf).getD []
  | .taken w => ((pool.threads[w]?).map fun info => info.context.toList).getD []
  | .handed w => ((pool.threads[w]?).map fun info => info.handed).getD []
  | .direct => pool.direct

/-- The job is at one place, once. -/
def ExactlyOnce (pool : Pool) (job : Job) : Prop :=
  ∃ place, (jobsAt pool place).count job = 1 ∧
    ∀ other, other ≠ place → (jobsAt pool other).count job = 0

/-! ### One worker -/

/-- What stands between the jobs placed on a worker's queue and those it has handed over. -/
structure WorkerInv (info : ThreadInfo) : Prop where
  order : info.placed = info.handed ++ info.context.toList ++ carried info.buf
  free : info.pc ≠ .pop → info.pc ≠ .unlock → info.pc ≠ .getData → info.context = none
  waiting : info.pc = .front → info.buf ≠ []
  moved : info.pc = .pop → ∃ rest, info.buf = none :: rest

theorem new_workerInv (work : Bool) : WorkerInv (.new work) where
  order := rfl
  free _ _ _ := rfl
  waiting here := nomatch here
  moved here := nomatch here

/-- Outside the three places the worker's variable is empty. -/
theorem WorkerInv.idle {info : ThreadInfo} (inv : WorkerInv info) {pc : WorkerPc}
    (here : info.pc = pc) (calm : pc ≠ .pop ∧ pc ≠ .unlock ∧ pc ≠ .getData) :
    info.context = none := by
  subst here
  exact inv.free calm.1 calm.2.1 calm.2.2

/-- A step that moves no job: the worker goes on, holding a mutex more or less. -/
theorem WorkerInv.goOn {info : ThreadInfo} (inv : WorkerInv info) (pc : WorkerPc)
    (mutex : Option Thread) (idle : info.context = none) (calm : pc ≠ .pop)
    (nonempty : pc = .front → info.buf ≠ []) :
    WorkerInv { info with pc := pc, mutex := mutex } where
  order := inv.order
  free _ _ _ := idle
  waiting := nonempty
  moved here := absurd here calm

/-- A worker's step keeps what stands between, and neither the flag nor the history of its
queue. -/
theorem workerStep_inv {w : Nat} {stop : Bool} {threadsMutex threadsMutex' : Option Thread}
    {info info' : ThreadInfo} (inv : WorkerInv info)
    (taken : workerStep w stop threadsMutex info = some (threadsMutex', info')) :
    WorkerInv info' ∧ info'.work = info.work ∧ info'.placed = info.placed := by
  have order := inv.order
  unfold workerStep at taken
  cases pc : info.pc with
  | test =>
    have idle := inv.idle pc (by decide)
    simp only [pc] at taken
    split at taken
    · cases taken
      exact ⟨inv.goOn .exited info.mutex idle nofun nofun, rfl, rfl⟩
    · split at taken
      · cases taken
        exact ⟨inv.goOn .lockThreads info.mutex idle nofun nofun, rfl, rfl⟩
      · cases taken
        exact ⟨inv.goOn .lock info.mutex idle nofun nofun, rfl, rfl⟩
  | lockThreads | waitThreads =>
    have idle := inv.idle pc (by decide)
    simp only [pc] at taken
    split at taken
    · cases taken
      exact ⟨inv.goOn .checkWork info.mutex idle nofun nofun, rfl, rfl⟩
    · cases taken
  | checkWork =>
    have idle := inv.idle pc (by decide)
    simp only [pc] at taken
    split at taken
    · cases taken
      exact ⟨inv.goOn .waitThreads info.mutex idle nofun nofun, rfl, rfl⟩
    · cases taken
      exact ⟨inv.goOn .unlockThreads info.mutex idle nofun nofun, rfl, rfl⟩
  | unlockThreads =>
    have idle := inv.idle pc (by decide)
    simp only [pc] at taken
    cases taken
    refine ⟨inv.goOn _ info.mutex idle ?_ ?_, rfl, rfl⟩
    · split <;> nofun
    · split <;> nofun
  | lock | wait =>
    have idle := inv.idle pc (by decide)
    simp only [pc] at taken
    split at taken
    · cases taken
      exact ⟨inv.goOn .checkEmpty (some (.worker w)) idle nofun nofun, rfl, rfl⟩
    · cases taken
  | checkEmpty =>
    have idle := inv.idle pc (by decide)
    simp only [pc] at taken
    split at taken
    · cases taken
      exact ⟨inv.goOn .wait none idle nofun nofun, rfl, rfl⟩
    · next nonempty =>
      cases taken
      exact ⟨inv.goOn .front info.mutex idle nofun fun _ => nonempty, rfl, rfl⟩
  | front =>
    have idle := inv.idle pc (by decide)
    simp only [pc] at taken
    split at taken
    · cases taken
    · next front rest queued =>
      cases taken
      refine ⟨⟨?_, fun calm => absurd rfl calm, nofun, fun _ => ⟨rest, rfl⟩⟩, rfl, rfl⟩
      rw [idle, queued] at order
      cases front with
      | none => simpa [carried] using order
      | some job => simpa [carried] using order
  | pop =>
    obtain ⟨rest, queued⟩ := inv.moved pc
    simp only [pc] at taken
    cases taken
    refine ⟨⟨?_, fun _ calm => absurd rfl calm, nofun, nofun⟩, rfl, rfl⟩
    rw [queued] at order
    simpa [carried, queued] using order
  | unlock =>
    simp only [pc] at taken
    cases taken
    exact ⟨⟨order, fun _ _ calm => absurd rfl calm, nofun, nofun⟩, rfl, rfl⟩
  | getData =>
    simp only [pc] at taken
    cases taken
    refine ⟨⟨?_, fun _ _ _ => rfl, nofun, nofun⟩, rfl, rfl⟩
    simpa using order
  | exited =>
    simp only [pc] at taken
    cases taken

/-- A push of a job: the queue and its history grow by it. -/
theorem WorkerInv.push {info : ThreadInfo} (inv : WorkerInv info) (job : Job) :
    WorkerInv { info with buf := info.buf ++ [some job], placed := info.placed ++ [job] } where
  order := by
    have order := inv.order
    simp only [carried, List.filterMap_append, ← List.append_assoc] at order ⊢
    rw [order]
    rfl
  free := inv.free
  waiting _ := by simp
  moved here := by
    obtain ⟨rest, queued⟩ := inv.moved here
    exact ⟨rest ++ [some job], by rw [queued, List.cons_append]⟩

theorem WorkerInv.mutex {info : ThreadInfo} (inv : WorkerInv info) (mutex : Option Thread) :
    WorkerInv { info with mutex := mutex } :=
  ⟨inv.order, inv.free, inv.waiting, inv.moved⟩

/-! ### The pool -/

/-- The flag of a thread and the history of its queue. -/
structure Log where
  work : Bool
  placed : List Job

def ledger (threads : List ThreadInfo) : List Log :=
  threads.map fun info => ⟨info.work, info.placed⟩

/-- The call has not pushed its job. -/
def Carries : CallPc → Prop
  | .unlock _ | .returned => False
  | _ => True

/-- The entry of `m_threads_vct` that a call has chosen. -/
def chosen : CallPc → Option Nat
  | .unlockThreads info | .lock info | .push info | .unlock info => some info
  | _ => none

/-- The calls and the histories of the queues: each job is carried by its call or has been
placed once, on the queue of a working thread. -/
structure Placement (workingNum : Nat) (logs : List Log) (calls : List Call) : Prop where
  work : ∀ (w : Nat) (log : Log), logs[w]? = some log → (log.work = true ↔ w < workingNum)
  chosen : ∀ (k : Nat) (call : Call), calls[k]? = some call → ∀ info, chosen call.pc = some info →
    info < workingNum
  carries : ∀ (k : Nat) (call : Call), calls[k]? = some call → Carries call.pc →
    call.context = some k
  emptied : ∀ (k : Nat) (call : Call), calls[k]? = some call → ¬Carries call.pc →
    call.context = none ∧ ∃ (w : Nat) (log : Log), logs[w]? = some log ∧ k ∈ log.placed
  pushed : ∀ (w : Nat) (log : Log), logs[w]? = some log → ∀ k ∈ log.placed,
    w < workingNum ∧ ∃ call, calls[k]? = some call ∧ ¬Carries call.pc
  once : ∀ (w : Nat) (log : Log), logs[w]? = some log → log.placed.Nodup
  apart : ∀ (w w' : Nat) (log log' : Log) (k : Nat), logs[w]? = some log →
    logs[w']? = some log' → k ∈ log.placed → k ∈ log'.placed → w = w'

/-- What holds between the steps. -/
structure Inv (pool : Pool) : Prop where
  single : pool.single = false
  direct : pool.direct = []
  index : pool.index < pool.workingNum
  bound : pool.workingNum ≤ pool.threads.length
  small : pool.workingNum < 2 ^ 32
  workers : ∀ info ∈ pool.threads, WorkerInv info
  placement : Placement pool.workingNum (ledger pool.threads) pool.calls

theorem found_of_set {A : Type} {entries : List A} {k j : Nat} {entry other : A}
    (found : (entries.set k entry)[j]? = some other) :
    j = k ∧ other = entry ∨ j ≠ k ∧ entries[j]? = some other := by
  by_cases same : k = j
  · subst same
    have inside := (List.getElem?_eq_some_iff.mp found).1
    rw [List.length_set] at inside
    simp only [List.getElem?_set_self inside, Option.some.injEq] at found
    exact .inl ⟨rfl, found.symm⟩
  · rw [List.getElem?_set_ne same] at found
    exact .inr ⟨Ne.symm same, found⟩

theorem ledger_getElem? (threads : List ThreadInfo) (w : Nat) :
    (ledger threads)[w]? = (threads[w]?).map fun info => ⟨info.work, info.placed⟩ :=
  List.getElem?_map

theorem ledger_set (threads : List ThreadInfo) (w : Nat) (info : ThreadInfo) :
    ledger (threads.set w info) = (ledger threads).set w ⟨info.work, info.placed⟩ :=
  List.map_set

theorem ledger_set_same {threads : List ThreadInfo} {w : Nat} {info info' : ThreadInfo}
    (here : threads[w]? = some info) (work : info'.work = info.work)
    (placed : info'.placed = info.placed) : ledger (threads.set w info') = ledger threads := by
  have entry : (ledger threads)[w]? = some ⟨info.work, info.placed⟩ := by
    rw [ledger_getElem?, here, Option.map_some]
  rw [ledger_set, work, placed]
  obtain ⟨inside, same⟩ := List.getElem?_eq_some_iff.mp entry
  rw [← same, List.set_getElem_self]

/-- A call goes on without pushing. -/
theorem Placement.goOn {workingNum : Nat} {logs : List Log} {calls : List Call}
    (placement : Placement workingNum logs calls) {k : Nat} {call call' : Call}
    (here : calls[k]? = some call) (context : call'.context = call.context)
    (phase : Carries call'.pc ↔ Carries call.pc)
    (chooses : ∀ info, Jobs.chosen call'.pc = some info → info < workingNum) :
    Placement workingNum logs (calls.set k call') := by
  have inside := (List.getElem?_eq_some_iff.mp here).1
  refine ⟨placement.work, ?_, ?_, ?_, ?_, placement.once, placement.apart⟩
  · intro j other found
    obtain ⟨rfl, rfl⟩ | ⟨-, before⟩ := found_of_set found
    · exact chooses
    · exact placement.chosen j other before
  · intro j other found carries
    obtain ⟨rfl, rfl⟩ | ⟨-, before⟩ := found_of_set found
    · rw [context]
      exact placement.carries j call here (phase.mp carries)
    · exact placement.carries j other before carries
  · intro j other found done
    obtain ⟨rfl, rfl⟩ | ⟨-, before⟩ := found_of_set found
    · rw [context]
      exact placement.emptied j call here fun carries => done (phase.mpr carries)
    · exact placement.emptied j other before done
  · intro w log found j placed
    obtain ⟨working, other, before, done⟩ := placement.pushed w log found j placed
    refine ⟨working, ?_⟩
    by_cases same : k = j
    · subst same
      rw [here] at before
      cases before
      exact ⟨call', List.getElem?_set_self inside, fun carries => done (phase.mp carries)⟩
    · exact ⟨other, by rw [List.getElem?_set_ne same]; exact before, done⟩

/-- The job of a call that carries it is on no queue. -/
theorem Placement.unplaced {workingNum : Nat} {logs : List Log} {calls : List Call}
    (placement : Placement workingNum logs calls) {k : Nat} {call : Call}
    (here : calls[k]? = some call) (carrying : Carries call.pc) {v : Nat} {log : Log}
    (found : logs[v]? = some log) : k ∉ log.placed := by
  intro placed
  obtain ⟨-, first, before, pushes⟩ := placement.pushed v log found k placed
  rw [here] at before
  cases before
  exact pushes carrying

section Push
variable {logs : List Log} {w k v : Nat} {log after : Log}

/-- An entry of the new ledger is an old one, but for the job at its end. -/
theorem found_of_push (there : logs[w]? = some log)
    (found : (logs.set w ⟨log.work, log.placed ++ [k]⟩)[v]? = some after) :
    ∃ before, logs[v]? = some before ∧ after.work = before.work ∧
      after.placed = before.placed ++ (if v = w then [k] else []) := by
  obtain ⟨rfl, rfl⟩ | ⟨apart, before⟩ := found_of_set found
  · exact ⟨log, there, rfl, by rw [if_pos rfl]⟩
  · exact ⟨after, before, rfl, by rw [if_neg apart, List.append_nil]⟩

theorem placed_of_push (there : logs[w]? = some log)
    (found : (logs.set w ⟨log.work, log.placed ++ [k]⟩)[v]? = some after) {j : Nat}
    (placed : j ∈ after.placed) :
    (v = w ∧ j = k) ∨ ∃ before, logs[v]? = some before ∧ j ∈ before.placed := by
  obtain ⟨before, was, -, history⟩ := found_of_push there found
  rw [history, List.mem_append] at placed
  obtain earlier | new := placed
  · exact .inr ⟨before, was, earlier⟩
  · by_cases same : v = w
    · rw [if_pos same, List.mem_singleton] at new
      exact .inl ⟨same, new⟩
    · rw [if_neg same] at new
      cases new

end Push

/-- A call pushes its job on the queue that it has chosen. -/
theorem Placement.push {workingNum : Nat} {logs : List Log} {calls : List Call}
    (placement : Placement workingNum logs calls) {k w : Nat} {call : Call} (call' : Call)
    {log : Log} (here : calls[k]? = some call) (carrying : Carries call.pc)
    (working : w < workingNum) (there : logs[w]? = some log) (done : ¬Carries call'.pc)
    (emptied : call'.context = none) (chooses : Jobs.chosen call'.pc = some w) :
    Placement workingNum (logs.set w ⟨log.work, log.placed ++ [k]⟩) (calls.set k call') := by
  have insideCalls := (List.getElem?_eq_some_iff.mp here).1
  have insideLogs := (List.getElem?_eq_some_iff.mp there).1
  refine ⟨?_, ?_, ?_, ?_, ?_, ?_, ?_⟩
  · intro v after found
    obtain ⟨before, was, work, -⟩ := found_of_push there found
    rw [work]
    exact placement.work v before was
  · intro j other found info chooses'
    obtain ⟨rfl, rfl⟩ | ⟨-, before⟩ := found_of_set found
    · rw [chooses] at chooses'
      cases chooses'
      exact working
    · exact placement.chosen j other before info chooses'
  · intro j other found carries
    obtain ⟨rfl, rfl⟩ | ⟨-, before⟩ := found_of_set found
    · exact absurd carries done
    · exact placement.carries j other before carries
  · intro j other found pushes
    obtain ⟨rfl, rfl⟩ | ⟨-, before⟩ := found_of_set found
    · exact ⟨emptied, w, _, List.getElem?_set_self insideLogs, by simp⟩
    · obtain ⟨none, v, old, was, placed⟩ := placement.emptied j other before pushes
      refine ⟨none, v, ?_⟩
      by_cases same : w = v
      · subst same
        rw [there] at was
        cases was
        exact ⟨_, List.getElem?_set_self insideLogs, List.mem_append_left _ placed⟩
      · exact ⟨old, by rw [List.getElem?_set_ne same]; exact was, placed⟩
  · intro v after found j placed
    obtain ⟨rfl, rfl⟩ | ⟨before, was, earlier⟩ := placed_of_push there found placed
    · exact ⟨working, call', List.getElem?_set_self insideCalls, done⟩
    · obtain ⟨bound, other, called, pushes⟩ := placement.pushed v before was j earlier
      have apart : k ≠ j := by
        rintro rfl
        exact placement.unplaced here carrying was earlier
      exact ⟨bound, other, by rw [List.getElem?_set_ne apart]; exact called, pushes⟩
  · intro v after found
    obtain ⟨before, was, -, history⟩ := found_of_push there found
    have fresh := placement.unplaced here carrying was
    rw [history]
    split
    · rw [List.nodup_append]
      refine ⟨placement.once v before was, List.nodup_singleton k, ?_⟩
      intro j earlier new single same
      rw [same, List.mem_singleton.mp single] at earlier
      exact fresh earlier
    · rw [List.append_nil]
      exact placement.once v before was
  · intro v v' after after' j found found' placed placed'
    obtain ⟨rfl, rfl⟩ | ⟨before, was, earlier⟩ := placed_of_push there found placed
    · obtain ⟨rfl, -⟩ | ⟨before', was', earlier'⟩ := placed_of_push there found' placed'
      · rfl
      · exact absurd earlier' (placement.unplaced here carrying was')
    · obtain ⟨rfl, rfl⟩ | ⟨before', was', earlier'⟩ := placed_of_push there found' placed'
      · exact absurd earlier (placement.unplaced here carrying was)
      · exact placement.apart v v' before before' j was was' earlier earlier'

theorem Placement.enter {workingNum : Nat} {logs : List Log} {calls : List Call}
    (placement : Placement workingNum logs calls) :
    Placement workingNum logs (calls ++ [⟨.test, some calls.length⟩]) := by
  have origin : ∀ (k : Nat) (call : Call),
      (calls ++ [⟨.test, some calls.length⟩])[k]? = some call →
      calls[k]? = some call ∨ k = calls.length ∧ call = ⟨.test, some calls.length⟩ := by
    intro k call found
    by_cases old : k < calls.length
    · rw [List.getElem?_append_left old] at found
      exact .inl found
    · have inside := (List.getElem?_eq_some_iff.mp found).1
      rw [List.length_append, List.length_singleton] at inside
      have last : k = calls.length := by omega
      subst last
      rw [List.getElem?_concat_length, Option.some.injEq] at found
      exact .inr ⟨rfl, found.symm⟩
  refine ⟨placement.work, ?_, ?_, ?_, ?_, placement.once, placement.apart⟩
  · intro k call found info chooses
    obtain before | ⟨-, rfl⟩ := origin k call found
    · exact placement.chosen k call before info chooses
    · cases chooses
  · intro k call found carries
    obtain before | ⟨rfl, rfl⟩ := origin k call found
    · exact placement.carries k call before carries
    · rfl
  · intro k call found pushes
    obtain before | ⟨-, rfl⟩ := origin k call found
    · exact placement.emptied k call before pushes
    · exact absurd trivial pushes
  · intro w log found k placed
    obtain ⟨working, call, before, pushes⟩ := placement.pushed w log found k placed
    refine ⟨working, call, ?_, pushes⟩
    rw [List.getElem?_append_left (List.getElem?_eq_some_iff.mp before).1]
    exact before

/-! ### Steps -/

/-- A step of a call that goes to another statement. -/
theorem Inv.goOn {pool : Pool} (inv : Inv pool) {k : Nat} {call : Call}
    (here : pool.calls[k]? = some call) (pc : CallPc) (phase : Carries pc ↔ Carries call.pc)
    (chooses : ∀ info, chosen pc = some info → info < pool.workingNum) {index : Nat}
    (within : index < pool.workingNum) (threadsMutex : Option Thread) :
    Inv (setCall { pool with index := index, threadsMutex := threadsMutex } k
      { call with pc := pc }) where
  single := inv.single
  direct := inv.direct
  index := within
  bound := inv.bound
  small := inv.small
  workers := inv.workers
  placement := inv.placement.goOn here rfl phase chooses

/-- A thread changes what its history does not tell. -/
theorem Inv.setThread {pool : Pool} (inv : Inv pool) {w : Nat} {info info' : ThreadInfo}
    (here : pool.threads[w]? = some info) (worker : WorkerInv info')
    (work : info'.work = info.work) (placed : info'.placed = info.placed) :
    Inv (setThread pool w info') where
  single := inv.single
  direct := inv.direct
  index := inv.index
  bound := by
    simpa only [Core.ThreadPool.setThread, List.length_set] using inv.bound
  small := inv.small
  workers := by
    intro other inside
    obtain before | rfl := List.mem_or_eq_of_mem_set inside
    · exact inv.workers other before
    · exact worker
  placement := by
    have same := ledger_set_same here work placed
    simpa only [Core.ThreadPool.setThread, same] using inv.placement

theorem nextIndex_lt {pool : Pool} (inv : Inv pool) : nextIndex pool < pool.workingNum := by
  have index := inv.index
  unfold nextIndex
  split <;> omega

theorem stepCall_inv {pool pool' : Pool} {k : Nat} (inv : Inv pool)
    (taken : stepCall pool k = some pool') : Inv pool' := by
  unfold stepCall at taken
  obtain ⟨call, here, taken⟩ := Option.bind_eq_some_iff.mp taken
  have chosen := inv.placement.chosen k call here
  have carries := inv.placement.carries k call here
  cases pc : call.pc with
  | test =>
    simp only [pc, inv.single, Bool.false_eq_true, if_false, Option.some.injEq] at taken
    rw [← taken]
    exact inv.goOn here .lockThreads (by simp [pc, Carries]) nofun inv.index pool.threadsMutex
  | lockThreads =>
    simp only [pc] at taken
    split at taken
    · cases taken
      exact inv.goOn here .select (by simp [pc, Carries]) nofun inv.index (some (.call k))
    · cases taken
  | select =>
    simp only [pc] at taken
    cases taken
    have within := nextIndex_lt inv
    refine inv.goOn here (.unlockThreads _) (by simp [pc, Carries]) ?_ within pool.threadsMutex
    rintro info ⟨⟩
    exact within
  | unlockThreads info =>
    simp only [pc] at taken
    cases taken
    refine inv.goOn here (.lock info) (by simp [pc, Carries]) ?_ inv.index none
    rintro other ⟨⟩
    exact chosen info (by rw [pc]; rfl)
  | lock info =>
    simp only [pc] at taken
    obtain ⟨thread, there, taken⟩ := Option.bind_eq_some_iff.mp taken
    split at taken
    · cases taken
      have worker := inv.workers thread (List.mem_of_getElem? there)
      have locked := inv.setThread there (worker.mutex (some (.call k))) rfl rfl
      refine locked.goOn here (.push info) (by simp [pc, Carries]) ?_ inv.index pool.threadsMutex
      rintro other ⟨⟩
      exact chosen info (by rw [pc]; rfl)
    · cases taken
  | push info =>
    simp only [pc] at taken
    obtain ⟨thread, there, taken⟩ := Option.bind_eq_some_iff.mp taken
    have context := carries (by simp [pc, Carries])
    have working := chosen info (by rw [pc]; rfl)
    have worker := inv.workers thread (List.mem_of_getElem? there)
    have log : (ledger pool.threads)[info]? = some ⟨thread.work, thread.placed⟩ := by
      rw [ledger_getElem?, there, Option.map_some]
    rw [context] at taken
    cases taken
    refine ⟨inv.single, inv.direct, inv.index, ?_, inv.small, ?_, ?_⟩
    · simpa only [setCall, Core.ThreadPool.setThread, List.length_set] using inv.bound
    · intro other inside
      obtain before | rfl := List.mem_or_eq_of_mem_set inside
      · exact inv.workers other before
      · exact worker.push k
    · have pushed := inv.placement.push ⟨.unlock info, none⟩ here
        (by simp [pc, Carries]) working log (by simp [Carries]) rfl rfl
      simpa only [setCall, Core.ThreadPool.setThread, ledger_set, Option.toList_some] using pushed
  | unlock info =>
    simp only [pc] at taken
    obtain ⟨thread, there, taken⟩ := Option.bind_eq_some_iff.mp taken
    cases taken
    have worker := inv.workers thread (List.mem_of_getElem? there)
    have unlocked := inv.setThread there (worker.mutex none) rfl rfl
    exact unlocked.goOn here .returned (by simp [pc, Carries]) nofun inv.index pool.threadsMutex
  | returned =>
    simp only [pc] at taken
    cases taken

theorem stepWorker_inv {pool pool' : Pool} {w : Nat} (inv : Inv pool)
    (taken : stepWorker pool w = some pool') : Inv pool' := by
  unfold stepWorker at taken
  obtain ⟨info, here, taken⟩ := Option.bind_eq_some_iff.mp taken
  obtain ⟨⟨threadsMutex, info'⟩, moved, taken⟩ := Option.bind_eq_some_iff.mp taken
  cases taken
  obtain ⟨worker, work, placed⟩ :=
    workerStep_inv (inv.workers info (List.mem_of_getElem? here)) moved
  have stepped := inv.setThread here worker work placed
  exact ⟨stepped.single, stepped.direct, stepped.index, stepped.bound, stepped.small,
    stepped.workers, stepped.placement⟩

theorem step_inv (pool : Pool) (event : Event) (pool' : Pool) (inv : Inv pool)
    (taken : step pool event = some pool') : Inv pool' := by
  cases event with
  | addJob =>
    cases taken
    exact ⟨inv.single, inv.direct, inv.index, inv.bound, inv.small, inv.workers,
      inv.placement.enter⟩
  | call k => exact stepCall_inv inv taken
  | worker w => exact stepWorker_inv inv taken
  | stop =>
    cases taken
    exact ⟨inv.single, inv.direct, inv.index, inv.bound, inv.small, inv.workers, inv.placement⟩

/-! ### Runs -/

/-- The pool after `init(recver, n)` and `start(false)`. -/
def started (n : Nat) : Pool := start false (init n 10 4 false)

theorem started_eq (n : Nat) : started n = { init n 10 4 false with
    workingNum := min n 10
    threads := (List.range' 0 n).map fun w => .new (decide (w < 10)) } := by
  have created := createThreads_eq n (init n 10 4 false) rfl (by simp [init])
  simp only [init, Pool.new, List.length_nil, Nat.zero_add, List.nil_append] at created
  exact created

theorem started_inv (n : Nat) (some_thread : 1 ≤ n) : Inv (started n) := by
  rw [started_eq]
  have logs : ∀ (w : Nat) (log : Log),
      (ledger ((List.range' 0 n).map fun w => .new (decide (w < 10))))[w]? = some log →
      w < n ∧ log = ⟨decide (w < 10), []⟩ := by
    intro w log found
    rw [ledger_getElem?, List.getElem?_map, Option.map_map, Option.map_eq_some_iff] at found
    obtain ⟨v, here, rfl⟩ := found
    obtain ⟨inside, rfl⟩ := List.getElem?_eq_some_iff.mp here
    rw [List.length_range'] at inside
    refine ⟨inside, ?_⟩
    simp [ThreadInfo.new]
  refine ⟨rfl, rfl, ?_, ?_, ?_, ?_, ?_, nofun, nofun, nofun, ?_, ?_, ?_⟩
  · simp only [init, Pool.new]
    omega
  · simp only [List.length_map, List.length_range']
    omega
  · simp only
    omega
  · intro info inside
    obtain ⟨w, -, rfl⟩ := List.mem_map.mp inside
    exact new_workerInv _
  · intro w log found
    obtain ⟨inside, rfl⟩ := logs w log found
    simp only [decide_eq_true_eq]
    omega
  · intro w log found k placed
    obtain ⟨-, rfl⟩ := logs w log found
    cases placed
  · intro w log found
    obtain ⟨-, rfl⟩ := logs w log found
    exact List.nodup_nil
  · intro w w' log log' k found found' placed
    obtain ⟨-, rfl⟩ := logs w log found
    cases placed

/-- The history of a worker's queue. -/
def history (pool : Pool) (w : Nat) : List Job :=
  (((ledger pool.threads)[w]?).map fun log => log.placed).getD []

theorem history_spec {pool : Pool} (inv : Inv pool) (w : Nat) :
    history pool w = jobsAt pool (.handed w) ++ jobsAt pool (.taken w) ++ jobsAt pool (.queue w) := by
  simp only [history, jobsAt, ledger_getElem?]
  cases here : pool.threads[w]? with
  | none => rfl
  | some info => exact (inv.workers info (List.mem_of_getElem? here)).order

theorem mem_history {pool : Pool} {w : Nat} {k : Job} (placed : k ∈ history pool w) :
    ∃ log, (ledger pool.threads)[w]? = some log ∧ k ∈ log.placed := by
  unfold history at placed
  cases found : (ledger pool.threads)[w]? with
  | none =>
    rw [found] at placed
    cases placed
  | some log =>
    rw [found] at placed
    exact ⟨log, rfl, placed⟩

/-- What is not in a worker's history is not with the worker. -/
theorem count_worker {pool : Pool} (inv : Inv pool) {w : Nat} {k : Job}
    (absent : k ∉ history pool w) :
    (jobsAt pool (.handed w)).count k = 0 ∧ (jobsAt pool (.taken w)).count k = 0 ∧
      (jobsAt pool (.queue w)).count k = 0 := by
  rw [history_spec inv w] at absent
  simp only [List.mem_append, not_or] at absent
  exact ⟨List.count_eq_zero.mpr absent.1.1, List.count_eq_zero.mpr absent.1.2,
    List.count_eq_zero.mpr absent.2⟩

/-- A call carries no job but its own. -/
theorem count_call {pool : Pool} (inv : Inv pool) {j k : Nat} (apart : j ≠ k) :
    (jobsAt pool (.call j)).count k = 0 := by
  simp only [jobsAt]
  cases here : pool.calls[j]? with
  | none => rfl
  | some call =>
    by_cases carries : Carries call.pc
    · simp [inv.placement.carries j call here carries, List.count_eq_zero, Ne.symm apart]
    · simp [(inv.placement.emptied j call here carries).1]

theorem exactlyOnce_carried {pool : Pool} (inv : Inv pool) {k : Nat} {call : Call}
    (here : pool.calls[k]? = some call) (carries : Carries call.pc) : ExactlyOnce pool k := by
  have unplaced : ∀ w, k ∉ history pool w := by
    intro w placed
    obtain ⟨log, found, inside⟩ := mem_history placed
    obtain ⟨-, other, before, pushes⟩ := inv.placement.pushed w log found k inside
    rw [here] at before
    cases before
    exact pushes carries
  refine ⟨.call k, ?_, ?_⟩
  · simp [jobsAt, here, inv.placement.carries k call here carries]
  · intro other apart
    cases other with
    | call j => exact count_call inv fun same => apart (by rw [same])
    | queue w => exact (count_worker inv (unplaced w)).2.2
    | taken w => exact (count_worker inv (unplaced w)).2.1
    | handed w => exact (count_worker inv (unplaced w)).1
    | direct => rw [jobsAt, inv.direct, List.count_nil]

theorem exactlyOnce_placed {pool : Pool} (inv : Inv pool) {k : Nat} {call : Call}
    (here : pool.calls[k]? = some call) (pushes : ¬Carries call.pc) : ExactlyOnce pool k := by
  obtain ⟨emptied, w, log, found, placed⟩ := inv.placement.emptied k call here pushes
  have total : (history pool w).count k = 1 := by
    rw [history, found]
    exact List.count_eq_one_of_mem (inv.placement.once w log found) placed
  rw [history_spec inv w, List.count_append, List.count_append] at total
  have elsewhere : ∀ other, other ≠ .handed w → other ≠ .taken w → other ≠ .queue w →
      (jobsAt pool other).count k = 0 := by
    intro other handed taken queue
    have absent : ∀ v, v ≠ w → k ∉ history pool v := by
      intro v apart inside
      obtain ⟨log', found', placed'⟩ := mem_history inside
      exact apart (inv.placement.apart v w log' log k found' found placed' placed)
    cases other with
    | call j =>
      by_cases same : j = k
      · subst same
        simp [jobsAt, here, emptied]
      · exact count_call inv same
    | queue v => exact (count_worker inv (absent v fun same => queue (by rw [same]))).2.2
    | taken v => exact (count_worker inv (absent v fun same => taken (by rw [same]))).2.1
    | handed v => exact (count_worker inv (absent v fun same => handed (by rw [same]))).1
    | direct => rw [jobsAt, inv.direct, List.count_nil]
  -- One of the three counts is 1, and the others are 0.
  have alone : ∀ place ∈ [Place.handed w, .taken w, .queue w], (jobsAt pool place).count k = 1 →
      ExactlyOnce pool k := by
    intro place inside one
    refine ⟨place, one, fun other apart => ?_⟩
    by_cases near : other ∈ [Place.handed w, .taken w, .queue w]
    · simp only [List.mem_cons, List.not_mem_nil, or_false] at inside near
      obtain rfl | rfl | rfl := inside <;> obtain rfl | rfl | rfl := near <;>
        first | exact absurd rfl apart | omega
    · simp only [List.mem_cons, List.not_mem_nil, or_false, not_or] at near
      exact elsewhere other near.1 near.2.1 near.2.2
  by_cases handed : (jobsAt pool (.handed w)).count k = 1
  · exact alone (.handed w) (by simp) handed
  · by_cases taken : (jobsAt pool (.taken w)).count k = 1
    · exact alone (.taken w) (by simp) taken
    · exact alone (.queue w) (by simp) (by omega)

/-- For any interleaving of any number of calls with the workers, in every state: each job is
at one place, once; a queue that holds jobs is a working thread's; the index is below the
number of working threads, which is at most the number of threads; and what was placed on a
worker's queue is, in this order, what the worker has handed over, what it has taken and what
is on the queue. -/
theorem exactly_once (n : Nat) (some_thread : 1 ≤ n) (events : List Event) (pool : Pool)
    (reached : run step (started n) events = some pool) :
    (∀ job < pool.calls.length, ExactlyOnce pool job) ∧
      (∀ (w : Nat) (info : ThreadInfo), pool.threads[w]? = some info → carried info.buf ≠ [] →
        info.work = true) ∧
      (pool.index < pool.workingNum ∧ pool.workingNum ≤ pool.threads.length) ∧
      ∀ info ∈ pool.threads,
        info.placed = info.handed ++ info.context.toList ++ carried info.buf := by
  have inv := run_invariant Inv step_inv (started_inv n some_thread) reached
  refine ⟨?_, ?_, ⟨inv.index, inv.bound⟩, fun info inside => (inv.workers info inside).order⟩
  · intro job called
    have here : pool.calls[job]? = some pool.calls[job] := List.getElem?_eq_getElem called
    by_cases carries : Carries pool.calls[job].pc
    · exact exactlyOnce_carried inv here carries
    · exact exactlyOnce_placed inv here carries
  · intro w info here queued
    obtain ⟨job, inside⟩ := List.exists_mem_of_ne_nil _ queued
    have order := (inv.workers info (List.mem_of_getElem? here)).order
    have found : (ledger pool.threads)[w]? = some ⟨info.work, info.placed⟩ := by
      rw [ledger_getElem?, here, Option.map_some]
    have placed : job ∈ info.placed := by
      rw [order]
      exact List.mem_append_right _ inside
    obtain ⟨working, -⟩ := inv.placement.pushed w _ found job placed
    exact (inv.placement.work w _ found).mpr working

/-- Two jobs for two workers; the calls take turns outside the selection, and so do the workers. -/
def twoJobs : List Event :=
  [.addJob, .addJob, .call 0, .call 1] ++ List.replicate 3 (.call 0) ++
    List.replicate 3 (.call 1) ++ (List.replicate 3 [.call 0, .call 1]).flatten ++
    (List.replicate 7 [.worker 0, .worker 1]).flatten

theorem exactly_once_two_jobs :
    ∃ pool, run step (started 2) twoJobs = some pool ∧ jobsAt pool (.handed 0) = [1] ∧
      jobsAt pool (.handed 1) = [0] ∧ ExactlyOnce pool 0 ∧ ExactlyOnce pool 1 := by
  have finished : (run step (started 2) twoJobs).map
      (fun pool => (jobsAt pool (.handed 0), jobsAt pool (.handed 1), pool.calls.length)) =
      some ([1], [0], 2) := by
    decide +kernel
  obtain ⟨pool, reached, same⟩ := Option.map_eq_some_iff.mp finished
  simp only [Prod.mk.injEq] at same
  obtain ⟨first, second, calls⟩ := same
  have places := (exactly_once 2 (by decide) twoJobs pool reached).1
  exact ⟨pool, reached, first, second, places 0 (by omega), places 1 (by omega)⟩

end SNFrame.System.Jobs
