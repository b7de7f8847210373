import Mathlib.Logic.Function.Basic

/-! Straight-line memory programs and the addresses they touch. A program is a tree of
loads and stores, so that its result, the memory it leaves and its footprint are three
readings of the same object, and a program is known to depend only on what it loads. -/

namespace SNFrame.Library.Footprint

inductive Prog (Addr Val Result : Type) where
  | done (result : Result)
  | load (addr : Addr) (next : Val → Prog Addr Val Result)
  | store (addr : Addr) (value : Val) (next : Prog Addr Val Result)

namespace Prog

variable {Addr Val A B : Type}

def bind : Prog Addr Val A → (A → Prog Addr Val B) → Prog Addr Val B
  | done result, rest => rest result
  | load addr next, rest => load addr fun value => (next value).bind rest
  | store addr value next, rest => store addr value (next.bind rest)

instance : Monad (Prog Addr Val) where
  pure := done
  bind := bind

def read (addr : Addr) : Prog Addr Val Val := load addr done

def write (addr : Addr) (value : Val) : Prog Addr Val Unit := store addr value (done ())

variable [DecidableEq Addr]

/-- The result and the memory left behind. -/
def run : Prog Addr Val A → (Addr → Val) → A × (Addr → Val)
  | done result, memory => (result, memory)
  | load addr next, memory => (next (memory addr)).run memory
  | store addr value next, memory => next.run (Function.update memory addr value)

/-- The addresses loaded, in order. -/
def loads : Prog Addr Val A → (Addr → Val) → List Addr
  | done _, _ => []
  | load addr next, memory => addr :: (next (memory addr)).loads memory
  | store addr value next, memory => next.loads (Function.update memory addr value)

/-- The addresses stored to, in order. -/
def stores : Prog Addr Val A → (Addr → Val) → List Addr
  | done _, _ => []
  | load addr next, memory => (next (memory addr)).stores memory
  | store addr value next, memory => addr :: next.stores (Function.update memory addr value)

@[simp] theorem run_pure (result : A) (memory : Addr → Val) :
    (pure result : Prog Addr Val A).run memory = (result, memory) := rfl

@[simp] theorem run_read (addr : Addr) (memory : Addr → Val) :
    (read addr : Prog Addr Val Val).run memory = (memory addr, memory) := rfl

@[simp] theorem run_write (addr : Addr) (value : Val) (memory : Addr → Val) :
    (write addr value).run memory = ((), Function.update memory addr value) := rfl

@[simp] theorem loads_pure (result : A) (memory : Addr → Val) :
    (pure result : Prog Addr Val A).loads memory = [] := rfl

@[simp] theorem loads_read (addr : Addr) (memory : Addr → Val) :
    (read addr : Prog Addr Val Val).loads memory = [addr] := rfl

@[simp] theorem loads_write (addr : Addr) (value : Val) (memory : Addr → Val) :
    (write addr value).loads memory = [] := rfl

@[simp] theorem stores_pure (result : A) (memory : Addr → Val) :
    (pure result : Prog Addr Val A).stores memory = [] := rfl

@[simp] theorem stores_read (addr : Addr) (memory : Addr → Val) :
    (read addr : Prog Addr Val Val).stores memory = [] := rfl

@[simp] theorem stores_write (addr : Addr) (value : Val) (memory : Addr → Val) :
    (write addr value).stores memory = [addr] := rfl

@[simp] theorem run_bind (first : Prog Addr Val A) (rest : A → Prog Addr Val B)
    (memory : Addr → Val) :
    (first >>= rest).run memory = (rest (first.run memory).1).run (first.run memory).2 := by
  change (first.bind rest).run memory = _
  induction first generalizing memory with
  | done result => rfl
  | load addr next ih => exact ih (memory addr) memory
  | store addr value next ih => exact ih (Function.update memory addr value)

@[simp] theorem run_map (f : A → B) (program : Prog Addr Val A) (memory : Addr → Val) :
    (f <$> program).run memory = (f (program.run memory).1, (program.run memory).2) :=
  run_bind program (fun result => pure (f result)) memory

@[simp] theorem loads_bind (first : Prog Addr Val A) (rest : A → Prog Addr Val B)
    (memory : Addr → Val) :
    (first >>= rest).loads memory =
      first.loads memory ++ (rest (first.run memory).1).loads (first.run memory).2 := by
  change (first.bind rest).loads memory = _
  induction first generalizing memory with
  | done result => rfl
  | load addr next ih => exact congrArg (addr :: ·) (ih (memory addr) memory)
  | store addr value next ih => exact ih (Function.update memory addr value)

@[simp] theorem stores_bind (first : Prog Addr Val A) (rest : A → Prog Addr Val B)
    (memory : Addr → Val) :
    (first >>= rest).stores memory =
      first.stores memory ++ (rest (first.run memory).1).stores (first.run memory).2 := by
  change (first.bind rest).stores memory = _
  induction first generalizing memory with
  | done result => rfl
  | load addr next ih => exact ih (memory addr) memory
  | store addr value next ih => exact congrArg (addr :: ·) (ih (Function.update memory addr value))

/-- The frame rule: an address that is not stored to keeps its value. -/
theorem run_frame (program : Prog Addr Val A) (memory : Addr → Val) (addr : Addr)
    (untouched : addr ∉ program.stores memory) : (program.run memory).2 addr = memory addr := by
  induction program generalizing memory with
  | done result => rfl
  | load at_ next ih => exact ih (memory at_) memory untouched
  | store at_ value next ih =>
    simp only [stores, List.mem_cons, not_or] at untouched
    exact (ih (Function.update memory at_ value) untouched.2).trans
      (Function.update_of_ne untouched.1 ..)

/-- Two memories that agree on a region holding every load give the same result and the
same footprint, and still agree on that region afterwards. -/
theorem run_congr (program : Prog Addr Val A) (region : Addr → Prop) (memory other : Addr → Val)
    (confined : ∀ addr ∈ program.loads memory, region addr)
    (agree : ∀ addr, region addr → memory addr = other addr) :
    (program.run memory).1 = (program.run other).1 ∧
      program.loads memory = program.loads other ∧
      ∀ addr, region addr → (program.run memory).2 addr = (program.run other).2 addr := by
  induction program generalizing memory other with
  | done result => exact ⟨rfl, rfl, agree⟩
  | load addr next ih =>
    simp only [loads, List.mem_cons, forall_eq_or_imp] at confined
    have same := agree addr confined.1
    have rest := ih (memory addr) memory other confined.2 agree
    simp only [run, loads, ← same]
    exact ⟨rest.1, congrArg (addr :: ·) rest.2.1, rest.2.2⟩
  | store addr value next ih =>
    apply ih _ _ confined
    intro point inside
    by_cases here : point = addr
    · rw [here, Function.update_self, Function.update_self]
    · rw [Function.update_of_ne here, Function.update_of_ne here]
      exact agree point inside

end Prog

end SNFrame.Library.Footprint
