import Mathlib.Tactic.Common

/-! Code on one buffer, with a record of its accesses. An access names the place where the string
begins that its pointer was made for: code can stay inside its buffer and still leave its string. -/

namespace SNFrame.Library.Bounds

/-- An access at an index of the buffer, by a pointer into the string that begins at the base. -/
structure Access where
  base : Nat
  index : Int
deriving DecidableEq

/-- The access is not before the string, and not past the buffer. -/
def Access.Inside (size : Nat) (access : Access) : Prop :=
  (access.base : Int) ≤ access.index ∧ access.index < size

instance (size : Nat) (access : Access) : Decidable (access.Inside size) :=
  inferInstanceAs (Decidable (_ ∧ _))

/-- The accesses of a run, and its result with the buffer that it leaves. -/
structure Outcome (Cell A : Type) where
  accesses : List Access
  result : Option (A × List Cell)

def Code (Cell A : Type) : Type := List Cell → Outcome Cell A

namespace Code

variable {Cell A B : Type}

/-- A run stops where an access is outside the buffer. -/
def bind (first : Code Cell A) (rest : A → Code Cell B) : Code Cell B := fun buf =>
  match first buf with
  | ⟨accesses, none⟩ => ⟨accesses, none⟩
  | ⟨accesses, some (value, mid)⟩ =>
    match rest value mid with
    | ⟨more, result⟩ => ⟨accesses ++ more, result⟩

instance : Monad (Code Cell) where
  pure value := fun buf => ⟨[], some (value, buf)⟩
  bind := bind

def read (base : Nat) (index : Int) : Code Cell Cell := fun buf =>
  ⟨[⟨base, index⟩], if 0 ≤ index then buf[index.toNat]?.map (·, buf) else none⟩

def write (base : Nat) (index : Int) (cell : Cell) : Code Cell Unit := fun buf =>
  ⟨[⟨base, index⟩],
    if 0 ≤ index ∧ index < buf.length then some ((), buf.set index.toNat cell) else none⟩

/-- Every access of the run is inside. -/
def AllInside (code : Code Cell A) (buf : List Cell) : Prop :=
  ∀ access ∈ (code buf).accesses, access.Inside buf.length

instance (code : Code Cell A) (buf : List Cell) : Decidable (code.AllInside buf) :=
  inferInstanceAs (Decidable (∀ access ∈ (code buf).accesses, access.Inside buf.length))

/-- The code runs to its end, inside, with this value and this buffer. -/
structure Runs (code : Code Cell A) (buf : List Cell) (value : A) (after : List Cell) : Prop where
  inside : code.AllInside buf
  ends : (code buf).result = some (value, after)
  length : after.length = buf.length

section Rules
variable {first : Code Cell A} {rest : A → Code Cell B} {buf mid after : List Cell} {value : A}
  {last : B} {base : Nat}

theorem runs_pure (value : A) (buf : List Cell) :
    Runs (pure value : Code Cell A) buf value buf :=
  ⟨fun _ member => absurd member List.not_mem_nil, rfl, rfl⟩

/-- What a run does after its first part. -/
theorem bind_of_ends (ends : (first buf).result = some (value, mid)) :
    ((first >>= rest) buf).accesses = (first buf).accesses ++ (rest value mid).accesses ∧
      ((first >>= rest) buf).result = (rest value mid).result := by
  have split : first buf = ⟨(first buf).accesses, some (value, mid)⟩ := ends ▸ rfl
  change (bind first rest buf).accesses = _ ∧ (bind first rest buf).result = _
  rw [bind, split]
  exact ⟨rfl, rfl⟩

/-- After a first part that runs inside, the rest decides. -/
theorem allInside_bind (ran : Runs first buf value mid) :
    (first >>= rest).AllInside buf ↔ (rest value).AllInside mid := by
  simp only [AllInside, (bind_of_ends ran.ends).1, List.forall_mem_append, ran.length]
  exact and_iff_right ran.inside

theorem Runs.bind (ran : Runs first buf value mid) (runs : Runs (rest value) mid last after) :
    Runs (first >>= rest) buf last after :=
  ⟨(allInside_bind ran).mpr runs.inside, (bind_of_ends ran.ends).2.trans runs.ends,
    runs.length.trans ran.length⟩

/-- The first part of a run that is inside. -/
theorem allInside_first (inside : (first >>= rest).AllInside buf) : first.AllInside buf := by
  intro access member
  apply inside
  change access ∈ (Code.bind first rest buf).accesses
  rw [Code.bind]
  cases split : first buf with
  | mk accesses result =>
    rw [split] at member
    cases result with
    | none => exact member
    | some both => exact List.mem_append_left _ member

end Rules

section Accesses
variable {base : Nat} {before rest buf : List Cell} {cell value : Cell}

theorem inside_at (from_base : base ≤ before.length) :
    Access.Inside (before ++ cell :: rest).length ⟨base, (before.length : Nat)⟩ := by
  simp only [Access.Inside, List.length_append, List.length_cons]
  omega

theorem runs_read (from_base : base ≤ before.length) :
    Runs (read base before.length) (before ++ cell :: rest) cell (before ++ cell :: rest) := by
  refine ⟨?_, ?_, rfl⟩
  · intro access member
    obtain rfl := List.mem_singleton.mp member
    exact inside_at from_base
  · simp [read]

theorem runs_write (from_base : base ≤ before.length) :
    Runs (write base before.length value) (before ++ cell :: rest) ()
      (before ++ value :: rest) := by
  refine ⟨?_, ?_, by simp⟩
  · intro access member
    obtain rfl := List.mem_singleton.mp member
    exact inside_at from_base
  · have below : (before.length : Int) < (before ++ cell :: rest).length := by
      simp only [List.length_append, List.length_cons]
      omega
    simp only [write, below, Int.natCast_nonneg, and_self, if_true, Int.toNat_natCast]
    simp

/-- A read before the string. -/
theorem read_before {index : Int} (outside : index < base) (rest : Cell → Code Cell A) :
    ¬(read base index >>= rest).AllInside buf := by
  intro inside
  have bounds := allInside_first inside ⟨base, index⟩ (List.mem_singleton.mpr rfl)
  exact absurd bounds.1 (Int.not_le.mpr outside)

/-- A write past the buffer. -/
theorem write_past {index : Nat} (outside : buf.length ≤ index) (rest : Unit → Code Cell A) :
    ¬(write base index value >>= rest).AllInside buf := by
  intro inside
  have bounds := allInside_first inside ⟨base, index⟩ (List.mem_singleton.mpr rfl)
  exact absurd (Int.ofNat_lt.mp bounds.2) (Nat.not_lt.mpr outside)

end Accesses

end Code

end SNFrame.Library.Bounds
