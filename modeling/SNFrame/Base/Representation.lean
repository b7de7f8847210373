import SNFrame.Base.BufferCustody
import SNFrame.Base.Lengths

/-! The representation of a message: when `m_data`, `m_alloc` and `m_len` agree, and which
operations of the class and of PbBuf leave them so. -/

namespace SNFrame.Base.Representation
open Library.Octet Library.Transition IMString BufferCustody Lengths

/-- The three fields agree: an object without a buffer has no lengths, and else `m_alloc` is the
size of the block and `m_len` not more. -/
def Represented (store : Store) (object : Object) : Prop :=
  match object.mData with
  | none => object.mAlloc = 0 ∧ object.mLen = 0
  | some p => ∃ block, store.blocks p = some block ∧ 0 ≤ object.mLen ∧
      object.mLen ≤ object.mAlloc ∧ object.mAlloc = block.length

/-- The same of the message as a value. -/
def Sound (msg : PbBuf.IMString) : Prop :=
  match msg.mData with
  | none => msg.mAlloc = 0 ∧ msg.mLen = 0
  | some data => 0 ≤ msg.mLen ∧ msg.mLen ≤ msg.mAlloc ∧ msg.mAlloc = data.length

theorem represented_iff {store : Store} (sole : Sole store) {place : Place} {object : Object}
    (here : store.objects place = some object) :
    Represented store object ↔
      Sound ⟨object.mData.bind store.blocks, object.mAlloc, object.mLen⟩ := by
  cases pointer : object.mData with
  | none => simp [Represented, Sound, pointer]
  | some p =>
    have inside : (store.blocks p).isSome :=
      sole.allocated place p (by rw [held, here, Option.bind_some, pointer])
    obtain ⟨block, there⟩ := Option.isSome_iff_exists.mp inside
    simp [Represented, Sound, pointer, there]

/-- Every live object is represented. -/
def AllRepresented (store : Store) : Prop :=
  ∀ place object, store.objects place = some object → Represented store object

theorem allRepresented_iff {store : Store} (sole : Sole store) :
    AllRepresented store ↔ ∀ place msg, value store place = some msg → Sound msg := by
  constructor
  · intro all place msg read
    obtain ⟨object, here, rfl⟩ := Option.map_eq_some_iff.mp read
    exact (represented_iff sole here).mp (all place object here)
  · intro all place object here
    apply (represented_iff sole here).mpr
    apply all place
    rw [value, here, Option.map_some]

/-! ### The values that the operations leave -/

theorem sound_null : Sound .null := ⟨rfl, rfl⟩

/-- An object that has been moved from. -/
def movedFrom (msg : PbBuf.IMString) : PbBuf.IMString := { msg with mData := none }

theorem sound_movedFrom_iff {msg : PbBuf.IMString} (sound : Sound msg) :
    Sound (movedFrom msg) ↔ msg.mAlloc = 0 := by
  refine ⟨And.left, fun empty => ⟨empty, ?_⟩⟩
  change msg.mLen = 0
  unfold Sound at sound
  split at sound
  · exact sound.2
  · omega

theorem sound_bufalloc (heap : PbBuf.Heap) {len : Int} (size : heap.malloc = true → 0 ≤ len) :
    Sound (PbBuf.bufalloc heap len).2 := by
  unfold PbBuf.bufalloc
  by_cases malloc : heap.malloc = true
  · have bound := size malloc
    rw [if_pos malloc]
    refine ⟨le_rfl, bound, ?_⟩
    rw [List.length_replicate]
    exact (Int.toNat_of_nonneg bound).symm
  · rw [if_neg malloc]
    exact sound_null

theorem Sound.sized {msg : PbBuf.IMString} (sound : Sound msg) : Sized msg := by
  intro data live
  simp only [Sound, live] at sound
  exact sound.2.2

theorem Sound.nonneg {msg : PbBuf.IMString} (sound : Sound msg) :
    0 ≤ msg.mLen ∧ msg.mLen ≤ msg.mAlloc := by
  unfold Sound at sound
  split at sound
  · omega
  · exact ⟨sound.1, sound.2.1⟩

theorem sound_resize (heap : PbBuf.Heap) {msg : PbBuf.IMString} (sound : Sound msg) (n : Int) :
    Sound (PbBuf.resize heap msg n).2 := by
  have lengths := sound.nonneg
  unfold PbBuf.resize
  by_cases enough : msg.mAlloc ≥ n
  · rwa [if_pos enough]
  · rw [if_neg enough]
    by_cases malloc : heap.malloc = true
    · rw [if_pos malloc]
      refine ⟨lengths.1, by simp only; omega, ?_⟩
      simp only [List.length_map, List.length_range]
      omega
    · rwa [if_neg malloc]

/-- `resize` that returns true has made room. -/
theorem resize_room (heap : PbBuf.Heap) {msg : PbBuf.IMString} {n : Int}
    (answer : (PbBuf.resize heap msg n).1 = true) : n ≤ (PbBuf.resize heap msg n).2.mAlloc := by
  unfold PbBuf.resize at answer ⊢
  split_ifs at answer ⊢ with enough malloc
  · exact enough
  · exact le_rfl

/-- A live buffer that `set_data` cannot make larger. -/
def Refused (heap : PbBuf.Heap) (msg : PbBuf.IMString) (len : BitVec 16) : Prop :=
  msg.mData.isSome = true ∧ msg.mAlloc < (total len).toNat ∧ heap.malloc = false

theorem sound_setData_iff (heap : PbBuf.Heap) {msg : PbBuf.IMString} (sound : Sound msg)
    (buf : Option (List Byte)) (len : BitVec 16) :
    Sound (PbBuf.setData heap msg buf len).2 ↔ ¬Refused heap msg len := by
  have growth := grown_cases heap msg len
  have written : ∀ after data, after.mData = some data → after.mAlloc = data.length →
      (Sound { (PbBuf.exec heap after (PbBuf.setDataProg buf len)).2 with
        mLen := (total len).toNat } ↔ ((total len).toNat : Int) ≤ after.mAlloc) := by
    intro after data live size
    simp [Sound, PbBuf.exec, live, size]
  rw [setData_eq]
  revert growth
  generalize grown heap msg len = after
  intro growth
  cases growth with
  | enough room =>
    have granted : ¬Refused heap msg len := fun refused => absurd room (not_le.mpr refused.2.1)
    cases live : msg.mData with
    | none => simpa [live, granted] using sound
    | some data =>
      simp only [Option.isSome_some, if_true]
      exact iff_of_true ((written msg data live (sound.sized data live)).mpr room) granted
  | refused short failed =>
    cases live : msg.mData with
    | none =>
      have granted : ¬Refused heap msg len := by simp [Refused, live]
      simpa [live, granted] using sound
    | some data =>
      simp only [Option.isSome_some, if_true]
      have refused : Refused heap msg len := ⟨by rw [live]; rfl, short, failed⟩
      refine iff_of_false (fun kept => ?_) (not_not.mpr refused)
      exact absurd ((written msg data live (sound.sized data live)).mp kept) (not_le.mpr short)
  | grew short malloc data length =>
    simp only [Option.isSome_some, if_true]
    refine iff_of_true ((written _ data rfl (by simp only; rw [length])).mpr le_rfl) ?_
    rintro ⟨-, -, failed⟩
    rw [malloc] at failed
    cases failed

/-! ### The operations on the store -/

/-- What an operation does to the messages: the one at the given place gets a new value. -/
structure Acts (store next : Store) (place : Place) (msg : PbBuf.IMString) : Prop where
  kept : Kept next
  here : value next place = some msg
  others : ∀ other, other ≠ place → value next other = value store other

theorem Acts.trans {store middle next : Store} {place : Place} {first second : PbBuf.IMString}
    (before : Acts store middle place first) (after : Acts middle next place second) :
    Acts store next place second :=
  ⟨after.kept, after.here, fun other apart =>
    (after.others other apart).trans (before.others other apart)⟩

section Blocks
variable {store : Store} {place : Place} {object : Object}

/-- The object's own block and its length are written. -/
theorem acts_write (kept : Kept store) (here : store.objects place = some object) {p : Addr}
    (pointer : object.mData = some p) (bytes : List Byte) (mLen : Int) :
    Acts store ((store.setBlocks (Function.update store.blocks p (some bytes))).setObject place
      (some { object with mLen := mLen })) place ⟨some bytes, object.mAlloc, mLen⟩ := by
  have holds : held store place = some p := by rw [held, here, Option.bind_some, pointer]
  have inside : p ∈ allocated store.blocks := kept.sole.allocated place p holds
  have unmoved : Function.update (held store) place (some p) = held store := by
    rw [← holds, Function.update_eq_self]
  constructor
  · constructor
    · have same : insert p (allocated store.blocks) = allocated store.blocks :=
        Set.insert_eq_of_mem inside
      rw [Sole, held_setObject, held_setBlocks, setObject_blocks, setBlocks_blocks,
        allocated_insert, same, Option.bind_some]
      simp only [pointer, unmoved]
      exact kept.sole
    · have bound := kept.nonneg place object here
      exact nonneg_setObject kept.nonneg (by rintro self ⟨⟩; exact bound)
  · simp [value, pointer]
  · intro other apart
    apply value_congr
    · exact setObject_other (store.setBlocks _) _ _ _ apart
    · intro q there
      rw [setObject_blocks, setBlocks_blocks, Function.update_of_ne]
      rintro rfl
      exact apart (kept.sole.unique other place q there holds)

/-- The object's length alone is written. -/
theorem acts_setLen (kept : Kept store) (here : store.objects place = some object) (mLen : Int) :
    Acts store (store.setObject place (some { object with mLen := mLen })) place
      ⟨object.mData.bind store.blocks, object.mAlloc, mLen⟩ := by
  have holds : held store place = object.mData := by rw [held, here, Option.bind_some]
  constructor
  · constructor
    · rw [Sole, held_setObject, setObject_blocks, Option.bind_some]
      simp only [← holds, Function.update_eq_self]
      exact kept.sole
    · have bound := kept.nonneg place object here
      exact nonneg_setObject kept.nonneg (by rintro self ⟨⟩; exact bound)
  · simp [value]
  · intro other apart
    exact value_congr (setObject_other _ _ _ _ apart) fun _ _ => rfl

end Blocks

section Growing
variable {store next : Store} {place : Place} {answer : Answer}

theorem resizeAnswer_store (store : Store) (place : Place) (n : Int) (answer : Answer) :
    resize store place n answer = (resizeAnswer store place n answer).map (·.2) := by
  unfold resize resizeAnswer
  cases store.objects place with
  | none => rfl
  | some msg =>
    simp only [Option.bind_eq_bind, Option.bind_some]
    split_ifs with enough
    · rfl
    · cases realloc store.blocks msg.mData n answer with
      | none => rfl
      | some done =>
        obtain ⟨blocks, temp⟩ := done
        cases temp with
        | none => rfl
        | some temp => rfl

/-- The allocator as a call on the value of a message meets it. -/
def heapOf (answer : Answer) : PbBuf.Heap := ⟨answer.block.isSome, answer.unset⟩

theorem resizeAnswer_flag {n : Int} {flag : Bool} {msg : PbBuf.IMString} (kept : Kept store)
    (read : value store place = some msg)
    (done : resizeAnswer store place n answer = some (flag, next)) :
    flag = (PbBuf.resize (heapOf answer) msg n).1 := by
  obtain ⟨object, here, rfl⟩ := Option.map_eq_some_iff.mp read
  have bound := kept.nonneg place object here
  unfold resizeAnswer at done
  simp only [here, Option.bind_eq_bind, Option.bind_some] at done
  by_cases enough : object.mAlloc ≥ n
  · rw [if_pos enough] at done
    cases done
    rw [PbBuf.resize, if_pos enough]
  · rw [if_neg enough, realloc, if_neg fun zero => by omega] at done
    rw [PbBuf.resize, if_neg enough]
    cases result : answer.block with
    | none =>
      rw [result] at done
      cases done
      simp [heapOf, result]
    | some p =>
      rw [result] at done
      cases freed : free store.blocks object.mData with
      | none => simp [freed] at done
      | some rest =>
        simp only [freed, Option.map_some, Option.bind_some] at done
        cases done
        simp [heapOf, result]

/-- `resize` does to the message what it does to its value. -/
theorem resizeAnswer_acts {n : Int} (kept : Kept store) (live : Live store place)
    (possible : Possible answer store.blocks (held store place) n) :
    ∃ msg next, value store place = some msg ∧
      resizeAnswer store place n answer = some ((PbBuf.resize (heapOf answer) msg n).1, next) ∧
      Acts store next place (PbBuf.resize (heapOf answer) msg n).2 ∧
      ∀ other, Live store other → Live next other := by
  obtain ⟨next, done, after, -, lives⟩ := BufferCustody.resize_kept kept live possible
  obtain ⟨msg, read, here, others⟩ := resize_value kept possible done
  rw [resizeAnswer_store] at done
  obtain ⟨⟨flag, last⟩, answered, rfl⟩ := Option.map_eq_some_iff.mp done
  have same := resizeAnswer_flag kept read answered
  subst same
  exact ⟨msg, last, read, answered, ⟨after, here, others⟩, lives⟩

end Growing

theorem grow_acts {store : Store} {place : Place} {answer : Answer} (kept : Kept store)
    (live : Live store place) (len : BitVec 16)
    (possible : Possible answer store.blocks (held store place) (total len).toNat) :
    ∃ msg next, value store place = some msg ∧
      grow store place (total len).toNat answer =
        some ((grown (heapOf answer) msg len).1, next) ∧
      Acts store next place (grown (heapOf answer) msg len).2 := by
  obtain ⟨object, here⟩ := Option.isSome_iff_exists.mp live
  obtain ⟨msg, next, read, done, acts, -⟩ := resizeAnswer_acts kept live possible
  have same : msg.mAlloc = object.mAlloc := by
    rw [value, here] at read
    cases read
    rfl
  simp only [grow, here, Option.bind_eq_bind, Option.bind_some]
  by_cases short : object.mAlloc < (total len).toNat
  · refine ⟨msg, next, read, ?_⟩
    rw [grown, same, if_pos short, if_pos short]
    exact ⟨done, acts⟩
  · refine ⟨msg, store, read, ?_⟩
    rw [grown, same, if_neg short, if_neg short]
    exact ⟨rfl, kept, read, fun _ _ => rfl⟩

/-- `set_data` does to the message what it does to its value. -/
theorem setData_acts {store : Store} {place : Place} {answer : Answer} (kept : Kept store)
    (live : Live store place) (buf : Option (List Byte)) (len : BitVec 16)
    (possible : Possible answer store.blocks (held store place) (total len).toNat) :
    ∃ msg next, value store place = some msg ∧
      setData store place buf len answer =
        some ((PbBuf.setData (heapOf answer) msg buf len).1, next) ∧
      Acts store next place (PbBuf.setData (heapOf answer) msg buf len).2 := by
  obtain ⟨msg, middle, read, grows, acts⟩ := grow_acts kept live len possible
  obtain ⟨object, here, same⟩ := Option.map_eq_some_iff.mp acts.here
  change grow store place (len + BitVec.ofNat 16 PbBuf.HEAD_LEN).toNat answer = _ at grows
  refine ⟨msg, ?_⟩
  simp only [setData, grows, Option.bind_eq_bind, Option.bind_some, here]
  rw [setData_eq, ← same]
  cases pointer : object.mData with
  | none =>
    exact ⟨middle, read, by simp, by simpa using acts⟩
  | some p =>
    have inside : (middle.blocks p).isSome :=
      acts.kept.sole.allocated place p (by rw [held, here, Option.bind_some, pointer])
    obtain ⟨data, there⟩ := Option.isSome_iff_exists.mp inside
    simp only [there, Option.bind_some, Option.isSome_some, if_true]
    change ∃ next, _ ∧ some (true, (middle.setBlocks (Function.update middle.blocks p
      (PbBuf.exec (heapOf answer) ⟨some data, object.mAlloc, object.mLen⟩
        (PbBuf.setDataProg buf len)).2.mData)).setObject place _) = _ ∧ _
    have writes : ∃ bytes, (PbBuf.exec (heapOf answer) ⟨some data, object.mAlloc, object.mLen⟩
        (PbBuf.setDataProg buf len)).2 = ⟨some bytes, object.mAlloc, object.mLen⟩ := by
      simp [PbBuf.exec]
    obtain ⟨bytes, writes⟩ := writes
    rw [writes]
    have written := acts_write acts.kept here pointer bytes (total len).toNat
    rw [pointer] at written
    exact ⟨_, read, rfl, acts.trans written⟩

/-- `deep_copy` on the values of two messages. -/
def copied (heap : PbBuf.Heap) (dest msg : PbBuf.IMString) : Bool × PbBuf.IMString :=
  let grown := PbBuf.resize heap dest msg.mAlloc
  if grown.1 then
    (true, { grown.2 with
      mData := grown.2.mData.map fun data => msg.bytes ++ data.drop msg.mLen.toNat
      mLen := msg.mLen })
  else grown

theorem value_some {store : Store} {place : Place} {msg : PbBuf.IMString} {data : List Byte}
    (read : value store place = some msg) (live : msg.mData = some data) :
    ∃ object p, store.objects place = some object ∧ object.mData = some p ∧
      store.blocks p = some data ∧ object.mAlloc = msg.mAlloc ∧ object.mLen = msg.mLen := by
  obtain ⟨object, here, rfl⟩ := Option.map_eq_some_iff.mp read
  obtain ⟨p, pointer, block⟩ := Option.bind_eq_some_iff.mp live
  exact ⟨object, p, here, pointer, block, rfl, rfl⟩

theorem Sound.block {msg : PbBuf.IMString} (sound : Sound msg) (room : 0 < msg.mAlloc) :
    ∃ data, msg.mData = some data ∧ msg.mAlloc = data.length := by
  cases live : msg.mData with
  | none =>
    simp only [Sound, live] at sound
    omega
  | some data => exact ⟨data, rfl, sound.sized data live⟩

theorem memcpy_blocks {blocks : Blocks} {p q : Addr} {target source : List Byte} {len : Int}
    (dest : blocks p = some target) (src : blocks q = some source) (some_byte : len ≠ 0)
    (fits : 0 ≤ len ∧ len ≤ target.length ∧ len ≤ source.length) :
    memcpy blocks (some p) (some q) len = some (Function.update blocks p
      (some (source.take len.toNat ++ target.drop len.toNat))) := by
  simp [memcpy, dest, src, some_byte, fits]

/-- The second half of `deep_copy`, between sound messages: it copies between two blocks, each of
them large enough, or nothing at all. -/
theorem copyBody_acts {store : Store} {dest place : Place} {target msg : PbBuf.IMString}
    (kept : Kept store) (readDest : value store dest = some target)
    (read : value store place = some msg) (soundTarget : Sound target) (soundMsg : Sound msg)
    (room : msg.mAlloc ≤ target.mAlloc) :
    ∃ next, (store.objects place).bind (fun source => (store.objects dest).bind fun self =>
        (memcpy store.blocks self.mData source.mData source.mLen).bind fun blocks =>
          some (true,
            (store.setBlocks blocks).setObject dest (some { self with mLen := source.mLen }))) =
        some (true, next) ∧
      Acts store next dest { target with
        mData := target.mData.map fun data => msg.bytes ++ data.drop msg.mLen.toNat
        mLen := msg.mLen } := by
  have lengths := soundMsg.nonneg
  obtain ⟨source, thereSource, isSource⟩ := Option.map_eq_some_iff.mp read
  have len : source.mLen = msg.mLen := congrArg PbBuf.IMString.mLen isSource
  by_cases nothing : msg.mLen = 0
  · obtain ⟨self, thereDest, isDest⟩ := Option.map_eq_some_iff.mp readDest
    have bytes : msg.bytes = [] := by simp [PbBuf.IMString.bytes, nothing]
    have written := acts_setLen kept thereDest 0
    refine ⟨store.setObject dest (some { self with mLen := 0 }), ?_, ?_⟩
    · simp only [thereSource, thereDest, Option.bind_some, memcpy, len, nothing, if_true]
      rfl
    · rw [← isDest]
      simpa [bytes, nothing] using written
  · obtain ⟨data, dataIs, dataSize⟩ := soundMsg.block (by omega)
    obtain ⟨block, blockIs, blockSize⟩ := soundTarget.block (by omega)
    obtain ⟨other, q, thereOther, pointerSource, blockSource, -, -⟩ := value_some read dataIs
    obtain ⟨self, p, thereDest, pointerDest, blockDest, alloc, -⟩ := value_some readDest blockIs
    cases thereSource.symm.trans thereOther
    have bytes : msg.bytes = data.take msg.mLen.toNat := by
      rw [PbBuf.IMString.bytes, dataIs, Option.getD_some]
    have copies := memcpy_blocks blockDest blockSource nothing (by omega)
    rw [← bytes] at copies
    let blocks := Function.update store.blocks p (some (msg.bytes ++ block.drop msg.mLen.toNat))
    have written := acts_write kept thereDest pointerDest
      (msg.bytes ++ block.drop msg.mLen.toNat) msg.mLen
    refine ⟨(store.setBlocks blocks).setObject dest (some { self with mLen := msg.mLen }), ?_, ?_⟩
    · simp only [thereSource, thereDest, Option.bind_some, len, pointerSource, pointerDest, copies]
      rfl
    · rw [blockIs, ← alloc]
      exact written

theorem deepCopy_acts {store : Store} {dest place : Place} {answer : Answer}
    {msg : PbBuf.IMString} (kept : Kept store) (live : Live store dest)
    (read : value store place = some msg)
    (sound : ∀ place msg, value store place = some msg → Sound msg)
    (possible : Possible answer store.blocks (held store dest) msg.mAlloc) :
    ∃ target next, value store dest = some target ∧
      deepCopy store dest place answer = some ((copied (heapOf answer) target msg).1, next) ∧
      Acts store next dest (copied (heapOf answer) target msg).2 := by
  obtain ⟨target, middle, readDest, resizes, acts, -⟩ := resizeAnswer_acts kept live possible
  obtain ⟨object, here, is⟩ := Option.map_eq_some_iff.mp read
  have size : object.mAlloc = msg.mAlloc := congrArg PbBuf.IMString.mAlloc is
  refine ⟨target, ?_⟩
  rw [deepCopy, here]
  simp only [Option.bind_eq_bind, Option.bind_some, size, resizes, copied]
  by_cases grows : (PbBuf.resize (heapOf answer) target msg.mAlloc).1 = true
  · -- the source is what it was, be it the destination itself
    have unmoved : value middle place = some msg := by
      by_cases same : place = dest
      · subst same
        cases read.symm.trans readDest
        rw [acts.here, PbBuf.resize, if_pos le_rfl]
      · rw [acts.others place same, read]
    have soundGrown := sound_resize (heapOf answer) (sound dest target readDest) msg.mAlloc
    obtain ⟨next, copies, written⟩ := copyBody_acts acts.kept acts.here unmoved soundGrown
      (sound place msg read) (resize_room (heapOf answer) grows)
    simp only [grows, if_true]
    exact ⟨next, readDest, copies, acts.trans written⟩
  · simp only [grows, Bool.false_eq_true, if_false]
    exact ⟨middle, readDest, rfl, acts⟩

/-! ### Moves -/

/-- A move: the message is at the new place, and the old one has its lengths but no buffer. -/
structure Moves (store next : Store) (place rhs : Place) (msg : PbBuf.IMString) : Prop where
  kept : Kept next
  here : value next place = some msg
  there : value next rhs = some (movedFrom msg)
  others : ∀ other, other ≠ place → other ≠ rhs → value next other = value store other

theorem value_of_move {store next : Store} {place rhs : Place} {object : Object}
    (arrived : next.objects place = some object)
    (left : next.objects rhs = some { object with mData := none })
    (blocks : ∀ p, object.mData = some p → next.blocks p = store.blocks p) :
    value next place =
        some ⟨object.mData.bind store.blocks, object.mAlloc, object.mLen⟩ ∧
      value next rhs = some ⟨none, object.mAlloc, object.mLen⟩ := by
  constructor
  · cases pointer : object.mData with
    | none => simp [value, arrived, pointer]
    | some p => simp [value, arrived, pointer, blocks p pointer]
  · simp [value, left]

theorem copyConstruct_moves {store : Store} (kept : Kept store) {place rhs : Place}
    {object : Object} (source : store.objects rhs = some object) (apart : place ≠ rhs) :
    ∃ next, copyConstruct store place rhs = some next ∧
      Moves store next place rhs ⟨object.mData.bind store.blocks, object.mAlloc, object.mLen⟩ := by
  obtain ⟨next, done, after, same⟩ := copyConstruct_kept kept place source
  have arrived : next.objects place = some object := by simp [same, apart]
  have left : next.objects rhs = some { object with mData := none } := by simp [same]
  have blocks : next.blocks = store.blocks := by simp [same]
  have values := value_of_move arrived left fun p _ => congrFun blocks p
  refine ⟨next, done, after, values.1, values.2, fun other elsewhere elsewhere' => ?_⟩
  apply value_congr
  · simp [same, elsewhere, elsewhere']
  · simp [same]

theorem assign_moves {store : Store} (kept : Kept store) {place rhs : Place} {self object : Object}
    (target : store.objects place = some self) (source : store.objects rhs = some object)
    (apart : place ≠ rhs) :
    ∃ next, assign store place rhs = some next ∧
      Moves store next place rhs ⟨object.mData.bind store.blocks, object.mAlloc, object.mLen⟩ := by
  obtain ⟨next, blocks, done, after, same⟩ := assign_kept kept target source apart
  obtain ⟨here, others⟩ := assign_value kept apart done
  refine ⟨next, done, after, ?_, ?_, others⟩
  · rw [here, value, source, Option.map_some]
  · simp [value, same, movedFrom]

theorem destroy_value {store : Store} (kept : Kept store) {place : Place}
    (live : Live store place) :
    ∃ next, destroy store place = some next ∧ Kept next ∧ value next place = none ∧
      ∀ other, other ≠ place → value next other = value store other := by
  obtain ⟨self, here⟩ := Option.isSome_iff_exists.mp live
  obtain ⟨rest, freed, -, others⟩ := free_sole kept.sole place
  have pointer : held store place = self.mData := by rw [held, here, Option.bind_some]
  obtain ⟨next, blocks, done, after, same⟩ := destroy_kept kept live
  have blocksAre : blocks = rest := by
    rw [destroy, here] at done
    rw [pointer] at freed
    simp only [Option.bind_eq_bind, Option.bind_some, freed, Option.some.injEq] at done
    have both := done.trans same
    exact (congrArg Store.blocks both).symm
  subst blocksAre
  refine ⟨next, done, after, by simp [value, same], fun other apart => ?_⟩
  apply value_congr
  · simp [same, apart]
  · intro p there
    rw [same, setObject_blocks, setBlocks_blocks]
    exact others p fun holds => apart (kept.sole.unique other place p there holds)

/-! ### Runs -/

/-- The operations of the class and of PbBuf on messages. -/
inductive Operation where
  | construct (place : Place)
  | copyConstruct (place rhs : Place)
  | assign (place rhs : Place)
  | destroy (place : Place)
  | bufalloc (place : Place) (len : Int) (answer : Answer)
  | init (place : Place) (answer : Answer)
  | resize (place : Place) (newLenth : Int) (answer : Answer)
  | setData (place : Place) (buf : Option (List Byte)) (len : BitVec 16) (answer : Answer)
  | deepCopy (dest msg : Place) (answer : Answer)

def perform (store : Store) : Operation → Option Store
  | .construct place => some (construct store place)
  | .copyConstruct place rhs => copyConstruct store place rhs
  | .assign place rhs => assign store place rhs
  | .destroy place => destroy store place
  | .bufalloc place len answer => bufalloc store place len answer
  | .init place answer => init store place answer
  | .resize place newLenth answer => resize store place newLenth answer
  | .setData place buf len answer => (setData store place buf len answer).map (·.2)
  | .deepCopy dest msg answer => (deepCopy store dest msg answer).map (·.2)

/-- On objects that the program has, with new objects at places that are free, and bodies that
fit in a frame. -/
def Allowed (store : Store) : Operation → Prop
  | .construct place => ¬Live store place
  | .copyConstruct place rhs => ¬Live store place ∧ Live store rhs
  | .assign place rhs => Live store place ∧ Live store rhs
  | .destroy place => Live store place
  | .bufalloc place len answer => Live store place ∧ Possible answer store.blocks none len
  | .init place answer =>
      Live store place ∧ Possible answer store.blocks none PbBuf.BUFSIZE
  | .resize place newLenth answer =>
      Live store place ∧ Possible answer store.blocks (held store place) newLenth
  | .setData place _ len answer =>
      Live store place ∧ len.toNat ≤ 65508 ∧
        Possible answer store.blocks (held store place) (total len).toNat
  | .deepCopy dest msg answer =>
      Live store dest ∧ ∃ object, store.objects msg = some object ∧
        Possible answer store.blocks (held store dest) object.mAlloc

/-- Nothing is moved out of an object that has a buffer, and `set_data` is not refused the memory
for a buffer that it has to make larger. -/
def Careful (store : Store) : Operation → Prop
  | .copyConstruct _ rhs => ∀ object, store.objects rhs = some object → object.mAlloc = 0
  | .assign place rhs =>
      place ≠ rhs → ∀ object, store.objects rhs = some object → object.mAlloc = 0
  | .setData place _ len answer => ∀ object, store.objects place = some object →
      ¬(object.mData.isSome = true ∧ object.mAlloc < (total len).toNat ∧ answer.block = none)
  | _ => True

/-- The invariant, and what it is for: `resize` that returns true has made a buffer of the size,
and `deep_copy` never copies from or to NULL and copies the whole message. -/
structure Lawful (store : Store) : Prop where
  represented : AllRepresented store
  resized : ∀ place n answer next, Live store place →
    Possible answer store.blocks (held store place) n →
    resizeAnswer store place n answer = some (true, next) → 0 < n →
    ∃ object p block, next.objects place = some object ∧ object.mData = some p ∧
      next.blocks p = some block ∧ n ≤ block.length
  copied : ∀ dest msg answer object, Live store dest → store.objects msg = some object →
    Possible answer store.blocks (held store dest) object.mAlloc →
    ∃ flag next, deepCopy store dest msg answer = some (flag, next) ∧
      (flag = true → ∃ source copy, value store msg = some source ∧
        value next dest = some copy ∧ copy.mLen = source.mLen ∧ copy.bytes = source.bytes)

theorem Sound.bytes_length {msg : PbBuf.IMString} (sound : Sound msg) :
    msg.bytes.length = msg.mLen.toNat := by
  have lengths := sound.nonneg
  rw [PbBuf.IMString.bytes, List.length_take]
  cases live : msg.mData with
  | none =>
    simp only [Sound, live] at sound
    simp only [Option.getD_none, List.length_nil]
    omega
  | some data =>
    have size := sound.sized data live
    simp only [Option.getD_some]
    omega

/-- `deep_copy` that returns true has copied the whole message. -/
theorem copied_bytes {heap : PbBuf.Heap} {dest msg : PbBuf.IMString} (soundDest : Sound dest)
    (soundMsg : Sound msg) (grows : (copied heap dest msg).1 = true) :
    (copied heap dest msg).2.mLen = msg.mLen ∧ (copied heap dest msg).2.bytes = msg.bytes := by
  have length := soundMsg.bytes_length
  have result := sound_resize heap soundDest msg.mAlloc
  unfold copied at grows ⊢
  by_cases answer : (PbBuf.resize heap dest msg.mAlloc).1 = true
  · have room := resize_room heap answer
    simp only [answer, if_true]
    refine ⟨trivial, ?_⟩
    cases live : (PbBuf.resize heap dest msg.mAlloc).2.mData with
    | none =>
      have lengths := soundMsg.nonneg
      simp only [Sound, live] at result
      have nothing : msg.bytes = [] := List.length_eq_zero_iff.mp (by omega)
      rw [nothing, PbBuf.IMString.bytes]
      exact List.take_nil
    | some block =>
      change (msg.bytes ++ block.drop msg.mLen.toNat).take msg.mLen.toNat = msg.bytes
      rw [← length, List.take_left]
  · simp only [answer, Bool.false_eq_true, if_false] at grows

section Lawfulness
variable {store : Store} (kept : Kept store)
  (sound : ∀ place msg, value store place = some msg → Sound msg)
include kept sound

theorem resized_of_sound {place : Place} {n : Int} {answer : Answer} {next : Store}
    (live : Live store place) (possible : Possible answer store.blocks (held store place) n)
    (done : resizeAnswer store place n answer = some (true, next)) (positive : 0 < n) :
    ∃ object p block, next.objects place = some object ∧ object.mData = some p ∧
      next.blocks p = some block ∧ n ≤ block.length := by
  obtain ⟨msg, after, read, answered, acts, -⟩ := resizeAnswer_acts kept live possible
  rw [done, Option.some.injEq, Prod.mk.injEq] at answered
  obtain ⟨grows, rfl⟩ := answered
  have room := resize_room (heapOf answer) grows.symm
  have result := sound_resize (heapOf answer) (sound place msg read) n
  obtain ⟨block, live, size⟩ := result.block (positive.trans_le room)
  obtain ⟨object, p, here, pointer, there, -, -⟩ := value_some acts.here live
  exact ⟨object, p, block, here, pointer, there, size ▸ room⟩

theorem copied_of_sound {dest place : Place} {answer : Answer} {object : Object}
    (live : Live store dest) (here : store.objects place = some object)
    (possible : Possible answer store.blocks (held store dest) object.mAlloc) :
    ∃ flag next, deepCopy store dest place answer = some (flag, next) ∧
      (flag = true → ∃ source copy, value store place = some source ∧
        value next dest = some copy ∧ copy.mLen = source.mLen ∧ copy.bytes = source.bytes) := by
  have read : value store place =
      some ⟨object.mData.bind store.blocks, object.mAlloc, object.mLen⟩ := by
    rw [value, here, Option.map_some]
  obtain ⟨target, next, readDest, done, acts⟩ := deepCopy_acts kept live read sound possible
  refine ⟨_, next, done, fun grows => ⟨_, _, read, acts.here, ?_⟩⟩
  exact copied_bytes (sound dest target readDest) (sound place _ read) grows

theorem lawful_of_sound : Lawful store where
  represented := (allRepresented_iff kept.sole).mpr sound
  resized _ _ _ _ live possible done positive :=
    resized_of_sound kept sound live possible done positive
  copied _ _ _ _ live here possible := copied_of_sound kept sound live here possible

end Lawfulness

theorem lawful_iff {store : Store} (kept : Kept store) :
    Lawful store ↔ ∀ place msg, value store place = some msg → Sound msg :=
  ⟨fun lawful => (allRepresented_iff kept.sole).mp lawful.represented, lawful_of_sound kept⟩

section Steps
variable {store next : Store} (sound : ∀ place msg, value store place = some msg → Sound msg)
include sound

theorem sound_acts_iff {place : Place} {msg : PbBuf.IMString} (acts : Acts store next place msg) :
    (∀ place msg, value next place = some msg → Sound msg) ↔ Sound msg := by
  constructor
  · intro all
    exact all place msg acts.here
  · intro soundMsg other read there
    by_cases same : other = place
    · subst same
      cases acts.here.symm.trans there
      exact soundMsg
    · rw [acts.others other same] at there
      exact sound other read there

theorem sound_moves_iff {place rhs : Place} {msg : PbBuf.IMString} (soundMsg : Sound msg)
    (moves : Moves store next place rhs msg) :
    (∀ place msg, value next place = some msg → Sound msg) ↔ msg.mAlloc = 0 := by
  rw [← sound_movedFrom_iff soundMsg]
  constructor
  · intro all
    exact all rhs _ moves.there
  · intro left other read there
    by_cases same : other = place
    · subst same
      cases moves.here.symm.trans there
      exact soundMsg
    · by_cases same' : other = rhs
      · subst same'
        cases moves.there.symm.trans there
        exact left
      · rw [moves.others other same same'] at there
        exact sound other read there

end Steps

theorem kept_empty : Kept .empty := ⟨empty_inv.sole, empty_inv.nonneg⟩

theorem sound_copied {heap : PbBuf.Heap} {dest msg : PbBuf.IMString} (soundDest : Sound dest)
    (soundMsg : Sound msg) : Sound (copied heap dest msg).2 := by
  have result := sound_resize heap soundDest msg.mAlloc
  have lengths := soundMsg.nonneg
  have length := soundMsg.bytes_length
  unfold copied
  by_cases answer : (PbBuf.resize heap dest msg.mAlloc).1 = true
  · have room := resize_room heap answer
    simp only [answer, if_true]
    unfold Sound at result ⊢
    cases live : (PbBuf.resize heap dest msg.mAlloc).2.mData with
    | none =>
      simp only [live] at result
      exact ⟨result.1, by simp only; omega⟩
    | some block =>
      simp only [live] at result
      refine ⟨lengths.1, lengths.2.trans room, ?_⟩
      simp only [List.length_append, List.length_drop]
      omega
  · simpa only [answer, Bool.false_eq_true, if_false] using result

/-- A live message has a buffer if its object has. -/
theorem live_iff {store : Store} (kept : Kept store) {place : Place} {object : Object}
    (here : store.objects place = some object) :
    (object.mData.bind store.blocks).isSome = object.mData.isSome := by
  cases pointer : object.mData with
  | none => rfl
  | some p => exact kept.sole.allocated place p (by rw [held, here, Option.bind_some, pointer])

section Exact
variable {store : Store} (kept : Kept store)
  (sound : ∀ place msg, value store place = some msg → Sound msg)
include kept sound

theorem allocate_exact {place : Place} {len : Int} {answer : Answer} (live : Live store place)
    (possible : Possible answer store.blocks none len) :
    ∃ next, allocate store place len answer = some next ∧ Kept next ∧
      ((∀ place msg, value next place = some msg → Sound msg) ↔ True) := by
  obtain ⟨next, done, after, -⟩ := allocate_kept kept live possible
  obtain ⟨here, others⟩ := allocate_value kept possible done
  refine ⟨next, done, after, ?_⟩
  rw [sound_acts_iff sound ⟨after, here, others⟩]
  refine iff_of_true (sound_bufalloc _ fun malloc => ?_) trivial
  obtain ⟨p, given⟩ := Option.isSome_iff_exists.mp malloc
  exact (possible p given).1

/-- Each operation does its work on a sound store, and leaves it sound exactly if it is
careful. -/
theorem perform_exact {op : Operation} (allowed : Allowed store op) :
    ∃ next, perform store op = some next ∧ Kept next ∧
      ((∀ place msg, value next place = some msg → Sound msg) ↔ Careful store op) := by
  cases op with
  | construct place =>
    have acts : Acts store (construct store place) place .null :=
      ⟨construct_kept kept place, by simp [value, construct, PbBuf.IMString.null],
        fun other apart => value_congr (setObject_other _ _ _ _ apart) fun _ _ => rfl⟩
    refine ⟨_, rfl, acts.kept, ?_⟩
    rw [sound_acts_iff sound acts]
    exact iff_of_true sound_null trivial
  | copyConstruct place rhs =>
    obtain ⟨free, live⟩ := allowed
    obtain ⟨object, here⟩ := Option.isSome_iff_exists.mp live
    have apart : place ≠ rhs := by rintro rfl; exact free live
    obtain ⟨next, done, moves⟩ := copyConstruct_moves kept here apart
    refine ⟨next, done, moves.kept, ?_⟩
    rw [sound_moves_iff sound (sound rhs _ (by rw [value, here, Option.map_some])) moves]
    simp [Careful, here]
  | assign place rhs =>
    obtain ⟨⟨self, target⟩, object, here⟩ :=
      And.imp Option.isSome_iff_exists.mp Option.isSome_iff_exists.mp allowed
    by_cases apart : place = rhs
    · subst apart
      refine ⟨store, ?_, kept, ?_⟩
      · simp [perform, assign, here]
      · simpa [Careful] using sound
    · obtain ⟨next, done, moves⟩ := assign_moves kept target here apart
      refine ⟨next, done, moves.kept, ?_⟩
      rw [sound_moves_iff sound (sound rhs _ (by rw [value, here, Option.map_some])) moves]
      simp [Careful, here, apart]
  | destroy place =>
    obtain ⟨next, done, after, gone, others⟩ := destroy_value kept allowed
    refine ⟨next, done, after, iff_of_true (fun other msg read => ?_) trivial⟩
    by_cases same : other = place
    · subst same
      cases gone.symm.trans read
    · rw [others other same] at read
      exact sound other msg read
  | bufalloc place len answer => exact allocate_exact kept sound allowed.1 allowed.2
  | init place answer => exact allocate_exact kept sound allowed.1 allowed.2
  | resize place newLenth answer =>
    obtain ⟨live, possible⟩ := allowed
    obtain ⟨msg, next, read, done, acts, -⟩ := resizeAnswer_acts kept live possible
    refine ⟨next, ?_, acts.kept, ?_⟩
    · rw [perform, resizeAnswer_store, done, Option.map_some]
    · rw [sound_acts_iff sound acts]
      exact iff_of_true (sound_resize _ (sound place msg read) _) trivial
  | setData place buf len answer =>
    obtain ⟨live, -, possible⟩ := allowed
    obtain ⟨msg, next, read, done, acts⟩ := setData_acts kept live buf len possible
    refine ⟨next, ?_, acts.kept, ?_⟩
    · rw [perform, done, Option.map_some]
    · rw [sound_acts_iff sound acts, sound_setData_iff _ (sound place msg read)]
      obtain ⟨object, here, rfl⟩ := Option.map_eq_some_iff.mp read
      simp only [Careful, here, Option.some.injEq, forall_eq', Refused, heapOf, live_iff kept here,
        Option.isSome_eq_false_iff, Option.isNone_iff_eq_none]
  | deepCopy dest msg answer =>
    obtain ⟨live, object, here, possible⟩ := allowed
    have read : value store msg =
        some ⟨object.mData.bind store.blocks, object.mAlloc, object.mLen⟩ := by
      rw [value, here, Option.map_some]
    obtain ⟨target, next, readDest, done, acts⟩ := deepCopy_acts kept live read sound possible
    refine ⟨next, ?_, acts.kept, ?_⟩
    · rw [perform, done, Option.map_some]
    · rw [sound_acts_iff sound acts]
      exact iff_of_true (sound_copied (sound dest target readDest) (sound msg _ read)) trivial

end Exact

/-- Every list of operations on messages leaves all of them lawful if and only if each operation
is careful. -/
theorem represented_iff_careful (ops : List Operation)
    (allowed : Throughout perform Allowed .empty ops) :
    Always perform Lawful .empty ops ↔ Throughout perform Careful .empty ops := by
  apply always_iff_throughout_of_enabled Kept Lawful Allowed Careful
  · intro store op kept lawful admitted
    obtain ⟨next, done, after, exact_step⟩ :=
      perform_exact kept ((lawful_iff kept).mp lawful) admitted
    exact ⟨next, done, after, (lawful_iff after).trans exact_step⟩
  · exact kept_empty
  · exact (lawful_iff kept_empty).mpr fun place msg read => by simp [value, Store.empty] at read
  · exact allowed

/-- A program can begin with `init` of a new message, and go on from there. -/
theorem initialised_allowed {rest : List Operation}
    (onward : ∀ store, perform (construct .empty 1) (.init 1 ⟨some 200, fun _ => 0⟩) = some store →
      Throughout perform Allowed store rest) :
    Throughout perform Allowed .empty (.construct 1 :: .init 1 ⟨some 200, fun _ => 0⟩ :: rest) := by
  refine ⟨by simp [Allowed, Live, Store.empty], ?_⟩
  rintro first ⟨⟩
  refine ⟨⟨by simp [Live, construct], ?_⟩, onward⟩
  rintro p ⟨⟩
  exact ⟨by decide, .inl rfl⟩

/-- A block is allocated and copied into a message that has none. -/
def duplicate : List Operation :=
  [.construct 1, .init 1 ⟨some 200, fun _ => 0⟩, .construct 2, .deepCopy 2 1 ⟨some 300, fun _ => 0⟩]

theorem duplicate_allowed : Throughout perform Allowed .empty duplicate := by
  apply initialised_allowed
  rintro second ⟨⟩
  refine ⟨by simp [Allowed, Live, construct, Store.empty], ?_⟩
  rintro third ⟨⟩
  refine ⟨⟨by simp [Live, construct], ⟨some 200, PbBuf.BUFSIZE, 0⟩, by simp [construct], ?_⟩,
    fun _ _ => trivial⟩
  rintro p ⟨⟩
  exact ⟨by decide, .inl (by simp [construct, Store.empty])⟩

theorem represented_iff_careful_duplicate : Always perform Lawful .empty duplicate :=
  (represented_iff_careful duplicate duplicate_allowed).mpr
    ⟨trivial, fun _ _ => ⟨trivial, fun _ _ => ⟨trivial, fun _ _ => ⟨trivial, fun _ _ => trivial⟩⟩⟩⟩

/-- A message with a buffer is moved out of. -/
def moveOut : List Operation :=
  [.construct 1, .init 1 ⟨some 200, fun _ => 0⟩, .copyConstruct 2 1]

/-- The message that was moved from keeps `m_alloc`: `resize` to 100 bytes returns true, and
there is no buffer. -/
theorem capacity_without_buffer :
    Throughout perform Allowed .empty moveOut ∧ ¬Always perform Lawful .empty moveOut ∧
      (run perform .empty moveOut).bind (fun store =>
        (resizeAnswer store 1 100 ⟨none, fun _ => 0⟩).bind fun done =>
          (done.2.objects 1).map fun object => (done.1, object.mData, object.mAlloc)) =
        some (true, none, 128) := by
  refine ⟨?_, fun always => ?_, by decide +kernel⟩
  · apply initialised_allowed
    rintro second ⟨⟩
    exact ⟨⟨by simp [Live, construct, Store.empty], by simp [Live]⟩, fun _ _ => trivial⟩
  · have lawful : Lawful _ := ((always.2 _ rfl).2 _ rfl).1 _ rfl
    have empty := lawful.represented 1 ⟨none, PbBuf.BUFSIZE, 0⟩ (by simp [Store.setObject])
    exact absurd empty.1 (by decide)

end SNFrame.Base.Representation
