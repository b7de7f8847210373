import SNFrame.Base.IMString
import SNFrame.Library.Custody
import SNFrame.Library.Transition

/-! Who owns a message buffer. Over any sequence of operations each allocated block has at most
one live object, and `free` is never called on a block that is not allocated. -/

namespace SNFrame.Base.BufferCustody
open Library.Octet Library.Custody Library.Transition IMString

/-- The pointers of the live objects. -/
def held (store : Store) (place : Place) : Option Addr := (store.objects place).bind (·.mData)

def allocated (blocks : Blocks) : Set Addr := {p | (blocks p).isSome}

/-- Each block has at most one live object, and each pointer a block. -/
def Sole (store : Store) : Prop := SoleHolder (held store) (allocated store.blocks)

def Live (store : Store) (place : Place) : Prop := (store.objects place).isSome

/-- A live object that is not the node of a queue. -/
structure Variable (store : Store) (place : Place) : Prop where
  live : Live store place
  outside : ∀ queue, place ∉ store.queues queue

/-- What `malloc`, or `realloc` of the old block, may answer: NULL, or a block that nothing
else has; a size below zero is too large as a `size_t`. -/
def Possible (answer : Answer) (blocks : Blocks) (old : Option Addr) (size : Int) : Prop :=
  ∀ p, answer.block = some p → 0 ≤ size ∧ (blocks p = none ∨ old = some p)

/-- The operations that a program can make: on objects that it has, with new objects at places
that are free. -/
def Admitted (store : Store) : Op → Prop
  | .construct place => ¬Live store place
  | .copyConstruct place rhs => ¬Live store place ∧ Variable store rhs
  | .assign place rhs => Variable store place ∧ Variable store rhs
  | .destroy place => Variable store place
  | .bufalloc place len answer => Variable store place ∧ Possible answer store.blocks none len
  | .init place answer =>
      Variable store place ∧ Possible answer store.blocks none PbBuf.BUFSIZE
  | .resize place newLenth answer =>
      Variable store place ∧ Possible answer store.blocks (held store place) newLenth
  | .push _ caller parameter element =>
      Variable store caller ∧ ¬Live store parameter ∧ ¬Live store element ∧ parameter ≠ element
  | .pop _ msg => Variable store msg

/-- The nodes of the queues are live objects, each in one place of one queue. -/
structure Queued (store : Store) : Prop where
  live : ∀ queue, ∀ element ∈ store.queues queue, Live store element
  once : ∀ queue, (store.queues queue).Nodup
  apart : ∀ queue other element,
    element ∈ store.queues queue → element ∈ store.queues other → queue = other

/-- What holds between the operations. -/
structure Inv (store : Store) : Prop where
  sole : Sole store
  nonneg : ∀ place object, store.objects place = some object → 0 ≤ object.mAlloc
  queued : Queued store

theorem empty_inv : Inv .empty where
  sole := soleHolder_empty _
  nonneg _ _ here := nomatch here
  queued := ⟨fun _ _ inside => (nomatch inside), fun _ => List.nodup_nil,
    fun _ _ _ inside => (nomatch inside)⟩

/-! ### Blocks -/

@[simp] theorem held_setObject (store : Store) (place : Place) (object : Option Object) :
    held (store.setObject place object) =
      Function.update (held store) place (object.bind (·.mData)) := by
  funext other
  by_cases same : other = place
  · simp [held, Store.setObject, same]
  · simp [held, Store.setObject, same]

@[simp] theorem held_setBlocks (store : Store) (blocks : Blocks) :
    held (store.setBlocks blocks) = held store := rfl

theorem allocated_erase (blocks : Blocks) (p : Addr) :
    allocated (Function.update blocks p none) = allocated blocks \ {p} := by
  ext other
  by_cases same : other = p
  · simp [allocated, same]
  · simp [allocated, same]

theorem allocated_insert (blocks : Blocks) (p : Addr) (bytes : List Byte) :
    allocated (Function.update blocks p (some bytes)) = insert p (allocated blocks) := by
  ext other
  by_cases same : other = p
  · simp [allocated, same]
  · simp [allocated, same]

/-- `free` of a pointer that an object holds: it has a result, and the pointer is the holder's
no more. -/
theorem free_sole {holdings : Place → Option Addr} {blocks : Blocks}
    (sole : SoleHolder holdings (allocated blocks)) (place : Place) :
    ∃ rest, free blocks (holdings place) = some rest ∧
      SoleHolder (Function.update holdings place none) (allocated rest) ∧
      ∀ p, holdings place ≠ some p → rest p = blocks p := by
  cases here : holdings place with
  | none => exact ⟨blocks, rfl, sole.forget place, fun _ _ => rfl⟩
  | some p =>
    have inside : (blocks p).isSome := sole.allocated place p here
    refine ⟨Function.update blocks p none, by rw [free, if_pos inside], ?_, ?_⟩
    · rw [allocated_erase]
      exact sole.release here
    · intro other apart
      rw [Function.update_of_ne fun same => apart (by rw [same])]

/-! ### The class -/

/-- What the operations keep, whatever they do to the queues. -/
structure Kept (store : Store) : Prop where
  sole : Sole store
  nonneg : ∀ place object, store.objects place = some object → 0 ≤ object.mAlloc

theorem nonneg_setObject {store : Store}
    (nonneg : ∀ place object, store.objects place = some object → 0 ≤ object.mAlloc)
    {place : Place} {object : Option Object} (value : ∀ self, object = some self → 0 ≤ self.mAlloc) :
    ∀ other self, (store.setObject place object).objects other = some self → 0 ≤ self.mAlloc := by
  intro other self here
  by_cases same : other = place
  · rw [same, setObject_self] at here
    exact value self here
  · rw [setObject_other store place other object same] at here
    exact nonneg other self here

/-- A move leaves two objects with the length of one. -/
theorem nonneg_move {store : Store}
    (nonneg : ∀ place object, store.objects place = some object → 0 ≤ object.mAlloc)
    {object : Object} (bound : 0 ≤ object.mAlloc) (place rhs : Place) :
    ∀ other self, ((store.setObject place (some object)).setObject rhs
      (some { object with mData := none })).objects other = some self → 0 ≤ self.mAlloc := by
  apply nonneg_setObject (nonneg_setObject nonneg _)
  · rintro self ⟨⟩
    exact bound
  · rintro self ⟨⟩
    exact bound

theorem construct_kept {store : Store} (kept : Kept store) (place : Place) :
    Kept (construct store place) where
  sole := by
    rw [Sole, construct, held_setObject]
    exact kept.sole.forget place
  nonneg := nonneg_setObject kept.nonneg (by rintro self ⟨⟩; exact le_refl _)

theorem copyConstruct_kept {store : Store} (kept : Kept store) (place : Place) {rhs : Place}
    {object : Object} (source : store.objects rhs = some object) :
    ∃ next, copyConstruct store place rhs = some next ∧ Kept next ∧
      next = (store.setObject place (some object)).setObject rhs
        (some { object with mData := none }) := by
  refine ⟨_, by rw [copyConstruct, source]; rfl, ⟨?_, ?_⟩, rfl⟩
  · have moved := kept.sole.move rhs place
    rw [held, source, Option.bind_some] at moved
    simpa only [Sole, held_setObject, setObject_blocks, Option.bind_some] using moved
  · exact nonneg_move kept.nonneg (kept.nonneg rhs object source) place rhs

theorem assign_kept {store : Store} (kept : Kept store) {place rhs : Place} {self object : Object}
    (target : store.objects place = some self) (source : store.objects rhs = some object)
    (distinct : place ≠ rhs) :
    ∃ next blocks, assign store place rhs = some next ∧ Kept next ∧
      next = ((store.setBlocks blocks).setObject place (some object)).setObject rhs
        (some { object with mData := none }) := by
  obtain ⟨blocks, freed, sole, -⟩ := free_sole kept.sole place
  have pointer : held store place = self.mData := by rw [held, target, Option.bind_some]
  rw [pointer] at freed
  refine ⟨_, blocks, by rw [assign, target, source]; simp [distinct, freed], ⟨?_, ?_⟩, rfl⟩
  · have moved := sole.move rhs place
    rw [Function.update_of_ne distinct.symm, Function.update_idem] at moved
    rw [held, source, Option.bind_some] at moved
    simpa only [Sole, held_setObject, held_setBlocks, setObject_blocks, setBlocks_blocks,
      Option.bind_some] using moved
  · exact nonneg_move kept.nonneg (kept.nonneg rhs object source) place rhs

theorem destroy_kept {store : Store} (kept : Kept store) {place : Place}
    (live : Live store place) :
    ∃ next blocks, destroy store place = some next ∧ Kept next ∧
      next = (store.setBlocks blocks).setObject place none := by
  obtain ⟨self, here⟩ := Option.isSome_iff_exists.mp live
  obtain ⟨blocks, freed, sole, -⟩ := free_sole kept.sole place
  have pointer : held store place = self.mData := by rw [held, here, Option.bind_some]
  rw [pointer] at freed
  refine ⟨_, blocks, by rw [destroy, here]; simp [freed], ⟨?_, ?_⟩, rfl⟩
  · rw [Sole, held_setObject]
    exact sole
  · exact nonneg_setObject kept.nonneg (by rintro self ⟨⟩)

/-! ### PbBuf -/

theorem live_setObject {store : Store} {other : Place} (live : Live store other) (place : Place)
    (object : Object) : Live (store.setObject place (some object)) other := by
  by_cases same : other = place
  · simp [Live, same]
  · simpa [Live, same] using live

theorem allocate_kept {store : Store} (kept : Kept store) {place : Place}
    (live : Live store place) {len : Int} {answer : Answer}
    (possible : Possible answer store.blocks none len) :
    ∃ next, allocate store place len answer = some next ∧ Kept next ∧
      next.queues = store.queues ∧ ∀ other, Live store other → Live next other := by
  obtain ⟨self, here⟩ := Option.isSome_iff_exists.mp live
  rw [allocate, here]
  simp only [Option.bind_eq_bind, Option.bind_some]
  cases result : answer.block with
  | none =>
    refine ⟨store.setObject place (some ⟨none, 0, 0⟩), rfl, ⟨?_, ?_⟩, rfl,
      fun _ live => live_setObject live _ _⟩
    · rw [Sole, held_setObject]
      exact kept.sole.forget place
    · exact nonneg_setObject kept.nonneg (by rintro self ⟨⟩; exact le_refl _)
  | some p =>
    obtain ⟨size, free | old⟩ := possible p result
    · let blocks := Function.update store.blocks p (some (List.replicate len.toNat 0))
      refine ⟨(store.setBlocks blocks).setObject place (some ⟨some p, len, 0⟩), rfl, ⟨?_, ?_⟩, rfl,
        fun _ live => live_setObject (show Live (store.setBlocks blocks) _ from live) _ _⟩
      · have fresh : p ∉ allocated store.blocks := by simp [allocated, free]
        have acquired := kept.sole.acquire place fresh
        rw [← allocated_insert store.blocks p (List.replicate len.toNat 0)] at acquired
        simpa only [Sole, held_setObject, held_setBlocks, setObject_blocks, setBlocks_blocks,
          Option.bind_some] using acquired
      · exact nonneg_setObject kept.nonneg (by rintro self ⟨⟩; exact size)
    · cases old

/-- `realloc` to a positive size: it answers NULL and does nothing, or the pointer is the new
block and nothing else. -/
theorem realloc_sole {store : Store} (kept : Kept store) (place : Place) {n : Int}
    (positive : 0 < n) {answer : Answer}
    (possible : Possible answer store.blocks (held store place) n) :
    ∃ done, realloc store.blocks (held store place) n answer = some done ∧
      match done.2 with
      | none => done.1 = store.blocks
      | some p => SoleHolder (Function.update (held store) place (some p)) (allocated done.1) := by
  rw [realloc, if_neg fun zero => absurd zero.1 (ne_of_gt positive)]
  cases result : answer.block with
  | none => exact ⟨_, rfl, rfl⟩
  | some p =>
    obtain ⟨rest, freed, sole, others⟩ := free_sole kept.sole place
    refine ⟨_, by rw [freed]; rfl, ?_⟩
    have fresh : p ∉ allocated rest := by
      obtain ⟨-, free | old⟩ := possible p result
      · intro inside
        by_cases same : held store place = some p
        · have there : (store.blocks p).isSome := kept.sole.allocated place p same
          rw [free] at there
          cases there
        · simp [allocated, others p same, free] at inside
      · rw [old] at freed
        rw [free] at freed
        split at freed
        · cases freed
          simp [allocated]
        · cases freed
    have acquired := sole.acquire place fresh
    rw [Function.update_idem] at acquired
    simpa only [allocated_insert] using acquired

theorem resize_kept {store : Store} (kept : Kept store) {place : Place} (live : Live store place)
    {newLenth : Int} {answer : Answer}
    (possible : Possible answer store.blocks (held store place) newLenth) :
    ∃ next, resize store place newLenth answer = some next ∧ Kept next ∧
      next.queues = store.queues ∧ ∀ other, Live store other → Live next other := by
  obtain ⟨msg, here⟩ := Option.isSome_iff_exists.mp live
  have pointer : held store place = msg.mData := by rw [held, here, Option.bind_some]
  rw [resize, here]
  simp only [Option.bind_eq_bind, Option.bind_some]
  by_cases enough : msg.mAlloc ≥ newLenth
  · exact ⟨store, by rw [if_pos enough], kept, rfl, fun _ live => live⟩
  · have bound := kept.nonneg place msg here
    obtain ⟨done, regrown, sole⟩ := realloc_sole kept place (by omega) possible
    rw [pointer] at regrown
    rw [if_neg enough, regrown, Option.bind_some]
    obtain ⟨blocks, temp⟩ := done
    cases temp with
    | none =>
      cases sole
      exact ⟨_, rfl, kept, rfl, fun _ live => live⟩
    | some temp =>
      refine ⟨_, rfl, ⟨?_, nonneg_setObject kept.nonneg ?_⟩, rfl,
        fun _ live => live_setObject (show Live (store.setBlocks blocks) _ from live) _ _⟩
      · simpa only [Sole, held_setObject, held_setBlocks, setObject_blocks, setBlocks_blocks,
          Option.bind_some] using sole
      · rintro self ⟨⟩
        simp only
        omega

/-! ### Queues and runs -/

/-- An operation that leaves the queues alone. -/
theorem inv_of_kept {store next : Store} (inv : Inv store) (kept : Kept next)
    (same : next.queues = store.queues)
    (live : ∀ queue, ∀ element ∈ store.queues queue, Live store element → Live next element) :
    Inv next where
  sole := kept.sole
  nonneg := kept.nonneg
  queued :=
    { live := by
        intro queue element inside
        rw [same] at inside
        exact live queue element inside (inv.queued.live queue element inside)
      once := by
        rw [same]
        exact inv.queued.once
      apart := by
        rw [same]
        exact inv.queued.apart }

theorem queued_append {store next : Store} (queued : Queued store) {queue : Nat} {element : Place}
    (same : next.queues = Function.update store.queues queue (store.queues queue ++ [element]))
    (outside : ∀ other, element ∉ store.queues other) (alive : Live next element)
    (live : ∀ other, ∀ old ∈ store.queues other, Live next old) : Queued next := by
  have origin : ∀ other old, old ∈ next.queues other →
      old ∈ store.queues other ∨ other = queue ∧ old = element := by
    intro other old inside
    rw [same] at inside
    by_cases here : other = queue
    · subst here
      simpa using inside
    · rw [Function.update_of_ne here] at inside
      exact .inl inside
  constructor
  · intro other old inside
    obtain before | ⟨-, rfl⟩ := origin other old inside
    · exact live other old before
    · exact alive
  · intro other
    rw [same]
    by_cases here : other = queue
    · subst here
      rw [Function.update_self, List.nodup_append]
      refine ⟨queued.once other, List.nodup_singleton element, ?_⟩
      intro old inside added added' same
      rw [List.mem_singleton] at added'
      rw [same, added'] at inside
      exact outside other inside
    · rw [Function.update_of_ne here]
      exact queued.once other
  · intro one other old inside inside'
    obtain before | ⟨rfl, rfl⟩ := origin one old inside
    · obtain before' | ⟨rfl, rfl⟩ := origin other old inside'
      · exact queued.apart one other old before before'
      · exact absurd before (outside one)
    · obtain before' | ⟨rfl, -⟩ := origin other old inside'
      · exact absurd before' (outside other)
      · rfl

theorem queued_tail {store next : Store} (queued : Queued store) {queue : Nat} {front : Place}
    {rest : List Place} (first : store.queues queue = front :: rest)
    (same : next.queues = Function.update store.queues queue rest)
    (live : ∀ other, ∀ old ∈ store.queues other, old ≠ front → Live next old) : Queued next := by
  have once := queued.once queue
  rw [first, List.nodup_cons] at once
  have origin : ∀ other old, old ∈ next.queues other → old ∈ store.queues other ∧ old ≠ front := by
    intro other old inside
    rw [same] at inside
    by_cases here : other = queue
    · subst here
      rw [Function.update_self] at inside
      refine ⟨by rw [first]; exact List.mem_cons_of_mem _ inside, ?_⟩
      rintro rfl
      exact once.1 inside
    · rw [Function.update_of_ne here] at inside
      refine ⟨inside, ?_⟩
      rintro rfl
      exact here (queued.apart other queue old inside (by rw [first]; exact List.mem_cons_self))
  constructor
  · intro other old inside
    obtain ⟨before, apart⟩ := origin other old inside
    exact live other old before apart
  · intro other
    rw [same]
    by_cases here : other = queue
    · rw [here, Function.update_self]
      exact once.2
    · rw [Function.update_of_ne here]
      exact queued.once other
  · intro one other old inside inside'
    exact queued.apart one other old (origin one old inside).1 (origin other old inside').1

/-- A push: the caller's object holds nothing, and the new last element of the queue holds the
buffer that the caller's object had. -/
def Pushed (queue : Nat) (caller element : Place) (store next : Store) : Prop :=
  next.queues queue = store.queues queue ++ [element] ∧
    held next element = held store caller ∧ held next caller = none

/-- A pop from a queue with elements: the destination holds the buffer that the first of them
had. -/
def Popped (queue : Nat) (msg : Place) (store next : Store) : Prop :=
  ∀ front rest, store.queues queue = front :: rest →
    next.queues queue = rest ∧ held next msg = held store front

theorem push_spec {store : Store} (inv : Inv store) {queue : Nat} {caller parameter element : Place}
    (admitted : Admitted store (.push queue caller parameter element)) :
    ∃ next, push store queue caller parameter element = some next ∧ Inv next ∧
      Pushed queue caller element store next := by
  obtain ⟨source, deadParameter, deadElement, distinct⟩ := admitted
  obtain ⟨object, here⟩ := Option.isSome_iff_exists.mp source.live
  have kept : Kept store := ⟨inv.sole, inv.nonneg⟩
  have callerParameter : caller ≠ parameter := by
    rintro rfl
    exact deadParameter source.live
  have callerElement : caller ≠ element := by
    rintro rfl
    exact deadElement source.live
  obtain ⟨first, copied, kept', firstIs⟩ := copyConstruct_kept kept parameter here
  have inParameter : first.objects parameter = some object := by
    rw [firstIs, setObject_other _ _ _ _ callerParameter.symm, setObject_self]
  obtain ⟨second, copied', kept'', secondIs⟩ :=
    copyConstruct_kept kept' element inParameter
  let pushed := second.setQueue queue (second.queues queue ++ [element])
  have keptPushed : Kept pushed := ⟨kept''.sole, kept''.nonneg⟩
  have liveParameter : Live pushed parameter := by
    simp [Live, pushed, secondIs]
  obtain ⟨next, blocks, destroyed, keptNext, nextIs⟩ := destroy_kept keptPushed liveParameter
  have elsewhere : ∀ other, other ≠ parameter → other ≠ element → other ≠ caller →
      next.objects other = store.objects other := by
    intro other apart apart' apart''
    simp [nextIs, pushed, secondIs, firstIs, apart, apart', apart'']
  have atElement : next.objects element = some object := by
    simp [nextIs, pushed, secondIs, distinct.symm]
  have atCaller : next.objects caller = some { object with mData := none } := by
    simp [nextIs, pushed, secondIs, firstIs, callerParameter, callerElement]
  have queues : next.queues =
      Function.update store.queues queue (store.queues queue ++ [element]) := by
    simp [nextIs, pushed, secondIs, firstIs, Store.setQueue]
  have outside : ∀ other, element ∉ store.queues other :=
    fun other inside => deadElement (inv.queued.live other element inside)
  refine ⟨next, ?_, ⟨keptNext.sole, keptNext.nonneg, ?_⟩, ?_, ?_, ?_⟩
  · rw [push, copied]
    simp only [Option.bind_eq_bind, Option.bind_some, copied']
    exact destroyed
  · apply queued_append inv.queued queues outside (by rw [Live, atElement]; rfl)
    intro other old inside
    have live := inv.queued.live other old inside
    rw [Live, elsewhere old]
    · exact live
    · rintro rfl
      exact deadParameter live
    · rintro rfl
      exact deadElement live
    · rintro rfl
      exact source.outside other inside
  · rw [queues, Function.update_self]
  · rw [held, held, atElement, here]
  · rw [held, atCaller]
    rfl

theorem pop_spec {store : Store} (inv : Inv store) {queue : Nat} {msg : Place}
    (destination : Variable store msg) :
    ∃ next, step store (.pop queue msg) = some next ∧ Inv next ∧ Popped queue msg store next := by
  have kept : Kept store := ⟨inv.sole, inv.nonneg⟩
  cases first : store.queues queue with
  | nil =>
    refine ⟨store, by rw [step, pop, first]; rfl, inv, ?_⟩
    intro front rest some
    rw [first] at some
    cases some
  | cons front rest =>
    have inside : front ∈ store.queues queue := by
      rw [first]
      exact List.mem_cons_self
    have distinct : msg ≠ front := by
      rintro rfl
      exact destination.outside queue inside
    obtain ⟨self, target⟩ := Option.isSome_iff_exists.mp destination.live
    obtain ⟨object, source⟩ := Option.isSome_iff_exists.mp (inv.queued.live queue front inside)
    obtain ⟨assigned, blocks, assigns, keptAssigned, assignedIs⟩ :=
      assign_kept kept target source distinct
    have liveFront : Live assigned front := by simp [Live, assignedIs]
    obtain ⟨destroyed, blocks', destroys, keptDestroyed, destroyedIs⟩ :=
      destroy_kept keptAssigned liveFront
    refine ⟨destroyed.setQueue queue rest, ?_,
      ⟨keptDestroyed.sole, keptDestroyed.nonneg, ?_⟩, ?_⟩
    · rw [step, pop, first]
      simp only [assigns, destroys, Option.bind_eq_bind, Option.bind_some, Option.map_some]
    · apply queued_tail inv.queued first
      · simp [destroyedIs, assignedIs, Store.setQueue]
      · intro other old before apart
        have live := inv.queued.live other old before
        have apart' : old ≠ msg := by
          rintro rfl
          exact destination.outside other before
        simpa [Live, destroyedIs, assignedIs, apart, apart'] using live
    · intro front' rest' again
      rw [first] at again
      cases again
      refine ⟨setQueue_self .., ?_⟩
      rw [held, held, source]
      simp [destroyedIs, assignedIs, distinct]

theorem step_spec {store : Store} {op : Op} (inv : Inv store) (admitted : Admitted store op) :
    ∃ next, step store op = some next ∧ Inv next := by
  have kept : Kept store := ⟨inv.sole, inv.nonneg⟩
  cases op with
  | construct place =>
    exact ⟨_, rfl, inv_of_kept inv (construct_kept kept place) rfl
      fun _ _ _ live => live_setObject live _ _⟩
  | copyConstruct place rhs =>
    obtain ⟨object, source⟩ := Option.isSome_iff_exists.mp admitted.2.live
    obtain ⟨next, done, after, rfl⟩ := copyConstruct_kept kept place source
    exact ⟨_, done, inv_of_kept inv after rfl
      fun _ _ _ live => live_setObject (live_setObject live _ _) _ _⟩
  | assign place rhs =>
    obtain ⟨self, target⟩ := Option.isSome_iff_exists.mp admitted.1.live
    obtain ⟨object, source⟩ := Option.isSome_iff_exists.mp admitted.2.live
    by_cases same : place = rhs
    · refine ⟨store, ?_, inv⟩
      rw [step, assign, target, source]
      exact if_pos same
    · obtain ⟨next, blocks, done, after, rfl⟩ := assign_kept kept target source same
      refine ⟨_, done, inv_of_kept inv after rfl fun _ _ _ live => ?_⟩
      exact live_setObject (live_setObject (show Live (store.setBlocks blocks) _ from live) _ _) _ _
  | destroy place =>
    obtain ⟨next, blocks, done, after, rfl⟩ := destroy_kept kept admitted.live
    refine ⟨_, done, inv_of_kept inv after rfl fun queue element inside live => ?_⟩
    have apart : element ≠ place := by
      rintro rfl
      exact admitted.outside queue inside
    simpa [Live, apart] using live
  | bufalloc place len answer =>
    obtain ⟨next, done, after, queues, live⟩ := allocate_kept kept admitted.1.live admitted.2
    exact ⟨next, done, inv_of_kept inv after queues fun _ element _ => live element⟩
  | init place answer =>
    obtain ⟨next, done, after, queues, live⟩ := allocate_kept kept admitted.1.live admitted.2
    exact ⟨next, done, inv_of_kept inv after queues fun _ element _ => live element⟩
  | resize place newLenth answer =>
    obtain ⟨next, done, after, queues, live⟩ := resize_kept kept admitted.1.live admitted.2
    exact ⟨next, done, inv_of_kept inv after queues fun _ element _ => live element⟩
  | push queue caller parameter element =>
    obtain ⟨next, done, after, -⟩ := push_spec inv admitted
    exact ⟨next, done, after⟩
  | pop queue msg =>
    obtain ⟨next, done, after, -⟩ := pop_spec inv admitted
    exact ⟨next, done, after⟩

/-- Every sequence of operations runs to its end, so that no block is freed twice; where it
stands, no two live objects have one block, and no live object has a block that is not
allocated. A push there moves the caller's block into the queue, and a pop the first block of
the queue to the destination. -/
theorem single_ownership (ops : List Op) (admitted : Throughout step Admitted .empty ops) :
    ∃ store, run step .empty ops = some store ∧
      (∀ i j p, held store i = some p → held store j = some p → i = j) ∧
      (∀ i p, held store i = some p → (store.blocks p).isSome) ∧
      (∀ queue caller parameter element, Admitted store (.push queue caller parameter element) →
        ∃ next, step store (.push queue caller parameter element) = some next ∧
          Pushed queue caller element store next) ∧
      ∀ queue msg, Admitted store (.pop queue msg) →
        ∃ next, step store (.pop queue msg) = some next ∧ Popped queue msg store next := by
  have preserved : ∀ store op next, Inv store → Admitted store op →
      step store op = some next → Inv next := by
    intro store op next inv admitted taken
    obtain ⟨next', taken', after⟩ := step_spec inv admitted
    rw [taken] at taken'
    cases taken'
    exact after
  have enabled : ∀ store op, Inv store → Admitted store op → ∃ next, step store op = some next := by
    intro store op inv admitted
    obtain ⟨next, taken, -⟩ := step_spec inv admitted
    exact ⟨next, taken⟩
  obtain ⟨store, reached⟩ := run_of_throughout Inv Admitted preserved enabled empty_inv admitted
  have inv := invariant_of_throughout Inv Admitted preserved empty_inv admitted reached
  refine ⟨store, reached, inv.sole.unique, inv.sole.allocated, ?_, ?_⟩
  · intro queue caller parameter element pushes
    obtain ⟨next, taken, -, moved⟩ := push_spec inv pushes
    exact ⟨next, taken, moved⟩
  · intro queue msg pops
    obtain ⟨next, taken, -, moved⟩ := pop_spec inv pops
    exact ⟨next, taken, moved⟩

/-- A block goes into a queue and out of it. -/
def throughQueue : List Op :=
  [.construct 1, .init 1 ⟨some 200, fun _ => 0⟩, .push 7 1 2 3, .pop 7 1]

theorem throughQueue_admitted : Throughout step Admitted .empty throughQueue := by
  refine ⟨by simp [Admitted, Live, Store.empty], ?_⟩
  rintro first ⟨⟩
  refine ⟨⟨⟨by simp [Live, construct], by simp [construct, Store.empty]⟩, ?_⟩, ?_⟩
  · rintro p ⟨⟩
    exact ⟨by decide, .inl rfl⟩
  rintro second ⟨⟩
  refine ⟨⟨⟨by simp [Live], by simp [construct, Store.empty]⟩, ?_, ?_, by decide⟩, ?_⟩
  · simp [Live, construct, Store.empty]
  · simp [Live, construct, Store.empty]
  rintro third ⟨⟩
  refine ⟨⟨by simp [Live], fun queue inside => ?_⟩, fun _ _ => trivial⟩
  by_cases here : queue = 7
  · subst here
    simp [construct, Store.empty] at inside
  · simp [construct, Store.empty, Store.setQueue, here] at inside

theorem single_ownership_through_queue :
    ∃ store, run step .empty throughQueue = some store ∧
      (∀ i j p, held store i = some p → held store j = some p → i = j) ∧
      ∀ i p, held store i = some p → (store.blocks p).isSome := by
  obtain ⟨store, reached, unique, inside, -⟩ := single_ownership throughQueue throughQueue_admitted
  exact ⟨store, reached, unique, inside⟩

/-! ### Single ownership and the value of a message -/

/-- A message with the bytes of its block. -/
def value (store : Store) (place : Place) : Option PbBuf.IMString :=
  (store.objects place).map fun object => ⟨object.mData.bind store.blocks, object.mAlloc, object.mLen⟩

theorem value_congr {store next : Store} {other : Place}
    (objects : next.objects other = store.objects other)
    (blocks : ∀ p, held store other = some p → next.blocks p = store.blocks p) :
    value next other = value store other := by
  unfold value
  rw [objects]
  cases here : store.objects other with
  | none => rfl
  | some object =>
    cases pointer : object.mData with
    | none => simp only [Option.map_some, Option.bind_none, pointer]
    | some p =>
      have same := blocks p (by rw [held, here, Option.bind_some, pointer])
      simp only [Option.map_some, Option.bind_some, pointer, same]

/-- Allocation changes the message as the value model says, and no other message. -/
theorem allocate_value {store next : Store} (kept : Kept store) {place : Place} {len : Int}
    {answer : Answer} (possible : Possible answer store.blocks none len)
    (done : allocate store place len answer = some next) :
    value next place = some (PbBuf.bufalloc ⟨answer.block.isSome, answer.unset⟩ len).2 ∧
      ∀ other, other ≠ place → value next other = value store other := by
  unfold allocate at done
  cases here : store.objects place with
  | none => simp [here] at done
  | some self =>
    simp only [here, Option.bind_eq_bind, Option.bind_some] at done
    cases result : answer.block with
    | none =>
      rw [result] at done
      cases done
      refine ⟨by simp [value, PbBuf.bufalloc, PbBuf.IMString.null], fun other apart => ?_⟩
      exact value_congr (setObject_other _ _ _ _ apart) fun _ _ => rfl
    | some p =>
      rw [result] at done
      cases done
      refine ⟨by simp [value, PbBuf.bufalloc], fun other apart => ?_⟩
      apply value_congr
      · exact setObject_other (store.setBlocks _) _ _ _ apart
      · intro q holds
        have inside : (store.blocks q).isSome := kept.sole.allocated other q holds
        rw [setObject_blocks, setBlocks_blocks, Function.update_of_ne]
        rintro rfl
        obtain ⟨-, free | old⟩ := possible q result
        · rw [free] at inside
          cases inside
        · cases old

theorem resize_value {store next : Store} (kept : Kept store) {place : Place} {newLenth : Int}
    {answer : Answer} (possible : Possible answer store.blocks (held store place) newLenth)
    (done : resize store place newLenth answer = some next) :
    ∃ msg, value store place = some msg ∧
      value next place =
        some (PbBuf.resize ⟨answer.block.isSome, answer.unset⟩ msg newLenth).2 ∧
      ∀ other, other ≠ place → value next other = value store other := by
  unfold resize at done
  cases here : store.objects place with
  | none => simp [here] at done
  | some object =>
    have pointer : held store place = object.mData := by rw [held, here, Option.bind_some]
    have before : value store place =
        some ⟨object.mData.bind store.blocks, object.mAlloc, object.mLen⟩ := by simp [value, here]
    simp only [here, Option.bind_eq_bind, Option.bind_some] at done
    refine ⟨_, before, ?_⟩
    by_cases enough : object.mAlloc ≥ newLenth
    · rw [if_pos enough] at done
      cases done
      refine ⟨?_, fun _ _ => rfl⟩
      rw [before, PbBuf.resize, if_pos enough]
    · have bound := kept.nonneg place object here
      rw [if_neg enough] at done
      simp only [PbBuf.resize, if_neg enough]
      rw [realloc, if_neg fun zero => by omega] at done
      cases result : answer.block with
      | none =>
        rw [result] at done
        cases done
        have unchanged : store.setBlocks store.blocks = store := rfl
        rw [unchanged]
        exact ⟨by simpa using before, fun _ _ => rfl⟩
      | some p =>
        obtain ⟨rest, freed, -, others⟩ := free_sole kept.sole place
        rw [pointer] at freed
        rw [result] at done
        simp only [freed, Option.map_some, Option.bind_some] at done
        cases done
        refine ⟨?_, fun other apart => ?_⟩
        · simp [value, regrown, PbBuf.view]
        · apply value_congr
          · exact setObject_other (store.setBlocks _) _ _ _ apart
          · intro q holds
            have inside : (store.blocks q).isSome := kept.sole.allocated other q holds
            have foreign : held store place ≠ some q := fun same =>
              apart (kept.sole.unique other place q holds same)
            rw [setObject_blocks, setBlocks_blocks, Function.update_of_ne, others q foreign]
            rintro rfl
            obtain ⟨-, free | old⟩ := possible q result
            · rw [free] at inside
              cases inside
            · exact foreign old

/-- Assignment moves the whole message, and changes no third one. -/
theorem assign_value {store next : Store} (kept : Kept store) {place rhs : Place}
    (distinct : place ≠ rhs) (done : assign store place rhs = some next) :
    value next place = value store rhs ∧
      ∀ other, other ≠ place → other ≠ rhs → value next other = value store other := by
  unfold assign at done
  cases target : store.objects place with
  | none => simp [target] at done
  | some self =>
    cases source : store.objects rhs with
    | none => simp [target, source] at done
    | some object =>
      have pointer : held store place = self.mData := by rw [held, target, Option.bind_some]
      obtain ⟨blocks, freed, -, others⟩ := free_sole kept.sole place
      rw [pointer] at freed
      simp only [target, source, Option.bind_eq_bind, Option.bind_some, if_neg distinct,
        freed, Option.some.injEq] at done
      have spared : ∀ other p, other ≠ place → held store other = some p →
          next.blocks p = store.blocks p := by
        rintro other p apart holds
        rw [← done, setObject_blocks, setObject_blocks, setBlocks_blocks]
        exact others p fun same => apart (kept.sole.unique other place p holds same)
      constructor
      · have arrived : next.objects place = some object := by simp [← done, distinct]
        have bytes : object.mData.bind next.blocks = object.mData.bind store.blocks := by
          cases moved : object.mData with
          | none => rfl
          | some p =>
            exact spared rhs p distinct.symm (by rw [held, source, Option.bind_some, moved])
        simp only [value, arrived, source, Option.map_some, bytes]
      · intro other apart apart'
        apply value_congr
        · simp [← done, apart, apart']
        · exact fun p => spared other p apart

end SNFrame.Base.BufferCustody
