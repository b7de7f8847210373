import Mathlib.Logic.Function.Basic
import SNFrame.Base.PbBuf

/-! The class IMString over a heap of blocks: which object points to which block. Its copy
constructor and its assignment move the pointer out of their argument, so that the copies
which a call by value and a deque make are moves. `malloc` may answer with any address that is
not allocated; `free` of an address that is not allocated has no result.

The functions of PbBuf read and write one message through its pointer; here only those appear
that change a pointer. -/

namespace SNFrame.Base.IMString
open Library.Octet

abbrev Addr := Nat

/-- The allocated blocks. -/
abbrev Blocks := Addr → Option (List Byte)

/-- An object of the class: `m_data`, `m_alloc` and `m_len`. A moved pointer leaves the two
lengths behind. -/
structure Object where
  mData : Option Addr
  mAlloc : Int
  mLen : Int
  deriving DecidableEq, Repr

/-- Where an object lives: a variable of the program or the node of a deque. -/
abbrev Place := Nat

/-- The live objects, the blocks, and the queues, each a deque of objects. -/
structure Store where
  objects : Place → Option Object
  blocks : Blocks
  queues : Nat → List Place

def Store.empty : Store := ⟨fun _ => none, fun _ => none, fun _ => []⟩

def Store.setObject (store : Store) (place : Place) (object : Option Object) : Store :=
  { store with objects := Function.update store.objects place object }

def Store.setBlocks (store : Store) (blocks : Blocks) : Store := { store with blocks := blocks }

def Store.setQueue (store : Store) (queue : Nat) (elements : List Place) : Store :=
  { store with queues := Function.update store.queues queue elements }

section Fields
variable (store : Store) (place other : Place) (object : Option Object) (blocks : Blocks)
  (queue : Nat) (elements : List Place)

@[simp] theorem setObject_self : (store.setObject place object).objects place = object :=
  Function.update_self ..

@[simp] theorem setObject_other (apart : other ≠ place) :
    (store.setObject place object).objects other = store.objects other :=
  Function.update_of_ne apart ..

@[simp] theorem setObject_blocks : (store.setObject place object).blocks = store.blocks := rfl
@[simp] theorem setObject_queues : (store.setObject place object).queues = store.queues := rfl
@[simp] theorem setBlocks_objects : (store.setBlocks blocks).objects = store.objects := rfl
@[simp] theorem setBlocks_blocks : (store.setBlocks blocks).blocks = blocks := rfl
@[simp] theorem setBlocks_queues : (store.setBlocks blocks).queues = store.queues := rfl
@[simp] theorem setQueue_objects : (store.setQueue queue elements).objects = store.objects := rfl
@[simp] theorem setQueue_blocks : (store.setQueue queue elements).blocks = store.blocks := rfl

@[simp] theorem setQueue_self : (store.setQueue queue elements).queues queue = elements :=
  Function.update_self ..

end Fields

def free (blocks : Blocks) : Option Addr → Option Blocks
  | none => some blocks
  | some p => if (blocks p).isSome then some (Function.update blocks p none) else none

/-- What `malloc` or `realloc` answers, and the bytes that it leaves unset. -/
structure Answer where
  block : Option Addr
  unset : Nat → Byte

/-- The block of `n` bytes that `realloc` makes of the old one. -/
def regrown (blocks : Blocks) (old : Option Addr) (n : Nat) (unset : Nat → Byte) : List Byte :=
  (List.range n).map fun k => (((old.bind blocks).getD [])[k]?).getD (unset k)

/-- `realloc(old, n)`: it frees the old block when it answers with another one, and also for
the size 0, where it answers NULL. -/
def realloc (blocks : Blocks) (old : Option Addr) (n : Int) (answer : Answer) :
    Option (Blocks × Option Addr) :=
  if n = 0 ∧ old.isSome then (free blocks old).map fun blocks => (blocks, none)
  else match answer.block with
    | none => some (blocks, none)
    | some p =>
        (free blocks old).map fun rest =>
          (Function.update rest p (some (regrown blocks old n.toNat answer.unset)), some p)

/-! ### The class -/

/-- `IMString::IMString()`. -/
def construct (store : Store) (place : Place) : Store :=
  store.setObject place (some ⟨none, 0, 0⟩)

/-- `IMString::IMString(const IMString&)`. -/
def copyConstruct (store : Store) (place rhs : Place) : Option Store := do
  let object ← store.objects rhs
  some ((store.setObject place (some object)).setObject rhs (some { object with mData := none }))

/-- `IMString::operator=`. -/
def assign (store : Store) (place rhs : Place) : Option Store := do
  let self ← store.objects place
  let object ← store.objects rhs
  if place = rhs then some store
  else
    let blocks ← free store.blocks self.mData
    some (((store.setBlocks blocks).setObject place (some object)).setObject rhs
      (some { object with mData := none }))

/-- `IMString::~IMString`. -/
def destroy (store : Store) (place : Place) : Option Store := do
  let self ← store.objects place
  let blocks ← free store.blocks self.mData
  some ((store.setBlocks blocks).setObject place none)

/-! ### PbBuf -/

/-- What the two allocating functions share: the old pointer is forgotten, and a new block is
cleared. -/
def allocate (store : Store) (place : Place) (len : Int) (answer : Answer) : Option Store := do
  let _ ← store.objects place
  match answer.block with
  | none => some (store.setObject place (some ⟨none, 0, 0⟩))
  | some p =>
      let blocks := Function.update store.blocks p (some (List.replicate len.toNat 0))
      some ((store.setBlocks blocks).setObject place (some ⟨some p, len, 0⟩))

def bufalloc (store : Store) (place : Place) (len : Int) (answer : Answer) : Option Store :=
  allocate store place len answer

def init (store : Store) (place : Place) (answer : Answer) : Option Store :=
  allocate store place PbBuf.BUFSIZE answer

def resize (store : Store) (place : Place) (newLenth : Int) (answer : Answer) : Option Store := do
  let msg ← store.objects place
  if msg.mAlloc ≥ newLenth then some store
  else
    let done ← realloc store.blocks msg.mData newLenth answer
    match done.2 with
    | none => some (store.setBlocks done.1)
    | some temp =>
        some ((store.setBlocks done.1).setObject place
          (some { msg with mData := some temp, mAlloc := newLenth }))

/-- `resize` with its answer. -/
def resizeAnswer (store : Store) (place : Place) (newLenth : Int) (answer : Answer) :
    Option (Bool × Store) := do
  let msg ← store.objects place
  if msg.mAlloc ≥ newLenth then some (true, store)
  else
    let done ← realloc store.blocks msg.mData newLenth answer
    match done.2 with
    | none => some (false, store.setBlocks done.1)
    | some temp =>
        some (true, (store.setBlocks done.1).setObject place
          (some { msg with mData := some temp, mAlloc := newLenth }))

/-- The first lines of `set_data`. -/
def grow (store : Store) (place : Place) (total : Int) (answer : Answer) :
    Option (Bool × Store) := do
  let msg ← store.objects place
  if msg.mAlloc < total then resizeAnswer store place total answer else some (false, store)

/-- `set_data`. What it reads past a block is what `realloc` would leave there. -/
def setData (store : Store) (place : Place) (buf : Option (List Byte)) (len : BitVec 16)
    (answer : Answer) : Option (Bool × Store) := do
  let total := (len + BitVec.ofNat 16 PbBuf.HEAD_LEN).toNat
  let grown ← grow store place total answer
  let msg ← grown.2.objects place
  match msg.mData with
  | none => some grown
  | some p => do
      let data ← grown.2.blocks p
      let written := (PbBuf.exec ⟨answer.block.isSome, answer.unset⟩ ⟨some data, msg.mAlloc, msg.mLen⟩
        (PbBuf.setDataProg buf len)).2
      some (true, (grown.2.setBlocks (Function.update grown.2.blocks p written.mData)).setObject
        place (some { msg with mLen := total }))

/-- `memcpy` between two blocks; for no byte at all it needs none. -/
def memcpy (blocks : Blocks) (dest src : Option Addr) (len : Int) : Option Blocks :=
  if len = 0 then some blocks
  else do
    let p ← dest
    let target ← blocks p
    let source ← src.bind blocks
    if 0 ≤ len ∧ len ≤ target.length ∧ len ≤ source.length then
      some (Function.update blocks p
        (some (source.take len.toNat ++ target.drop len.toNat)))
    else none

def deepCopy (store : Store) (dest msg : Place) (answer : Answer) : Option (Bool × Store) := do
  let source ← store.objects msg
  let grown ← resizeAnswer store dest source.mAlloc answer
  if grown.1 then
    let source ← grown.2.objects msg
    let target ← grown.2.objects dest
    let blocks ← memcpy grown.2.blocks target.mData source.mData source.mLen
    some (true, (grown.2.setBlocks blocks).setObject dest (some { target with mLen := source.mLen }))
  else some (false, grown.2)

/-! ### The class IMQueue -/

/-- `IMQueue::push`: the parameter is a copy of the caller's object, and the new element of
the deque a copy of the parameter. -/
def push (store : Store) (queue : Nat) (caller parameter element : Place) : Option Store := do
  let store ← copyConstruct store parameter caller
  let store ← copyConstruct store element parameter
  let store := store.setQueue queue (store.queues queue ++ [element])
  destroy store parameter

/-- `IMQueue::pop`. -/
def pop (store : Store) (queue : Nat) (msg : Place) : Option (Bool × Store) :=
  match store.queues queue with
  | [] => some (false, store)
  | front :: rest => do
      let store ← assign store msg front
      let store ← destroy store front
      some (true, store.setQueue queue rest)

/-- The operations of a program. Where an object is made, its place is given. -/
inductive Op where
  | construct (place : Place)
  | copyConstruct (place rhs : Place)
  | assign (place rhs : Place)
  | destroy (place : Place)
  | bufalloc (place : Place) (len : Int) (answer : Answer)
  | init (place : Place) (answer : Answer)
  | resize (place : Place) (newLenth : Int) (answer : Answer)
  | push (queue : Nat) (caller parameter element : Place)
  | pop (queue : Nat) (msg : Place)

def step (store : Store) : Op → Option Store
  | .construct place => some (construct store place)
  | .copyConstruct place rhs => copyConstruct store place rhs
  | .assign place rhs => assign store place rhs
  | .destroy place => destroy store place
  | .bufalloc place len answer => bufalloc store place len answer
  | .init place answer => init store place answer
  | .resize place newLenth answer => resize store place newLenth answer
  | .push queue caller parameter element => push store queue caller parameter element
  | .pop queue msg => (pop store queue msg).map (·.2)

end SNFrame.Base.IMString
