import SNFrame.RedisClient.Feeding

/-! What the stack of tasks and the paths in it stand for: the arrays that are being filled, one
inside the other, each with the elements it has so far and the slots behind the one in hand. On
counts that an array can have, every access of the reader finds its slot. -/

namespace SNFrame.RedisClient.Builder
open Library.Octet Library.Incremental Library.Transition Reader Decoder Feeding

/-- An array around a slot: the elements before it and the number of the slots behind it. -/
structure Frame where
  filled : List RedisReply
  left : Nat

def Frame.close (frame : Frame) (slot : RedisReply) : RedisReply :=
  .array (frame.filled ++ slot :: List.replicate frame.left .null)

/-- The whole reply around a slot, the innermost array first. -/
def plug : List Frame → RedisReply → RedisReply
  | [], node => node
  | frame :: frames, node => plug frames (frame.close node)

/-- The slot in hand is filled: the arrays that are left open, or the complete reply. -/
def fill : List Frame → RedisReply → List Frame ⊕ RedisReply
  | [], node => .inr node
  | frame :: frames, node =>
      if frame.left = 0 then fill frames (frame.close node)
      else .inl (⟨frame.filled ++ [node], frame.left - 1⟩ :: frames)

def path : List Frame → List Nat
  | [] => []
  | frame :: frames => path frames ++ [frame.filled.length]

def index : List Frame → Int
  | [] => -1
  | frame :: _ => frame.filled.length

theorem setAt_close (frame : Frame) (slot new : RedisReply) (below : List Nat) :
    setAt (frame.close slot) (frame.filled.length :: below) new =
      (setAt slot below new).map frame.close := by
  rw [Frame.close, setAt, List.getElem?_append_right (le_refl _), Nat.sub_self,
    List.getElem?_cons_zero]
  apply congrArg (Except.map · (setAt slot below new))
  funext node
  rw [Frame.close, List.set_append_right _ _ (le_refl _), Nat.sub_self, List.set_cons_zero]

/-- The path of a slot leads to it. -/
theorem setAt_plug (frames : List Frame) (slot new : RedisReply) (below : List Nat) :
    setAt (plug frames slot) (path frames ++ below) new =
      (setAt slot below new).map (plug frames) := by
  induction frames generalizing slot below with
  | nil =>
    rw [plug, path, List.nil_append]
    cases setAt slot below new <;> rfl
  | cons frame frames ih =>
    rw [plug, path, List.append_assoc, ih, List.singleton_append, setAt_close]
    cases setAt slot below new <;> rfl

/-! ### The tasks -/

/-- The tasks below the one on top are the open arrays. -/
inductive Parents : List Frame → List ReadTask → Prop where
  | nil : Parents [] []
  | cons {frame : Frame} {frames : List Frame} {task : ReadTask} {tasks : List ReadTask}
      (type : task.type = some .REDIS_REPLY_ARRAY)
      (elements : task.elements = (frame.filled.length + 1 + frame.left : Nat))
      (obj : task.obj = path frames) (idx : task.idx = index frames)
      (below : Parents frames tasks) : Parents (frame :: frames) (task :: tasks)

theorem Parents.length_eq {frames : List Frame} {tasks : List ReadTask}
    (parents : Parents frames tasks) : tasks.length = frames.length := by
  induction parents with
  | nil => rfl
  | cons _ _ _ _ _ ih => rw [List.length_cons, List.length_cons, ih]

theorem slotPath_parents {frames : List Frame} {tasks : List ReadTask} {cur : ReadTask}
    (parents : Parents frames tasks) (idx : cur.idx = index frames) :
    slotPath (cur :: tasks) = path frames := by
  cases parents with
  | nil => rfl
  | cons type elements obj idx' below => rw [slotPath, obj, idx, index, Int.toNat_natCast, path]

/-- The object in the making, as the root of the reply. -/
def shown : List Frame → Option RedisReply
  | [] => none
  | frames => some (plug frames .null)

theorem store_parents {frames : List Frame} {tasks : List ReadTask} {cur : ReadTask}
    (parents : Parents frames tasks) (idx : cur.idx = index frames) (node : RedisReply) :
    store (cur :: tasks) (shown frames) node = .ok (plug frames node) := by
  have slot := slotPath_parents parents idx
  cases parents with
  | nil => rfl
  | @cons frame frames task tasks type elements obj idx' below =>
    have found := setAt_plug (frame :: frames) .null node []
    rw [List.append_nil, setAt] at found
    simp only [store, shown, slot, found]
    rfl

/-- Where `moveToNextTask` goes when the slot in hand has been filled. -/
inductive Moves (root : RedisReply) : List Frame ⊕ RedisReply → Except Fault (List ReadTask) → Prop
    where
  | complete : Moves root (.inr root) (.ok [])
  | next {later : List Frame} {cur : ReadTask} {tasks : List ReadTask} (some_open : later ≠ [])
      (type : cur.type = none) (idx : cur.idx = index later) (parents : Parents later tasks)
      (same : root = plug later .null) : Moves root (.inl later) (.ok (cur :: tasks))

theorem plug_advance (frame : Frame) (frames : List Frame) (node : RedisReply)
    (some_left : frame.left ≠ 0) :
    plug (frame :: frames) node =
      plug (⟨frame.filled ++ [node], frame.left - 1⟩ :: frames) .null := by
  obtain ⟨count, counted⟩ := Nat.exists_eq_succ_of_ne_zero some_left
  simp only [plug, Frame.close, counted, Nat.succ_sub_one, List.append_assoc,
    List.singleton_append, List.replicate_succ]

theorem moveToNextTask_moves {frames : List Frame} {tasks : List ReadTask} {cur : ReadTask}
    (parents : Parents frames tasks) (idx : cur.idx = index frames) (node : RedisReply) :
    Moves (plug frames node) (fill frames node) (moveToNextTask (cur :: tasks)) := by
  induction parents generalizing cur node with
  | nil => exact .complete
  | @cons frame frames task tasks type elements obj idx' below ih =>
    rw [index] at idx
    rw [moveToNextTask, if_neg (not_not.mpr type), fill]
    by_cases last : frame.left = 0
    · rw [if_pos last, if_pos (by omega)]
      exact ih idx' (frame.close node)
    · rw [if_neg last, if_neg (by omega), if_pos (by omega), plug_advance frame frames node last]
      refine .next (List.cons_ne_nil _ _) rfl ?_ (.cons type ?_ obj idx' below) rfl
      · simp only [index, List.length_append, List.length_singleton, idx]
        push_cast
        rfl
      · rw [elements]
        simp only [List.length_append, List.length_singleton]
        omega

/-! ### States of the decoder -/

/-- The arrays that are open and the type of the item in hand, if it is known. -/
structure Builds (frames : List Frame) (type : Option ReplyType) (parse : Parse) : Prop where
  top : ∃ cur tasks, parse.rstack = cur :: tasks ∧ cur.type = type ∧ cur.idx = index frames ∧
    Parents frames tasks
  reply : parse.reply = shown frames

theorem initial_builds : Builds [] none .initial :=
  ⟨⟨rootTask, [], rfl, rfl, rfl, .nil⟩, rfl⟩

theorem shown_of_ne {frames : List Frame} (some_open : frames ≠ []) :
    shown frames = some (plug frames .null) := by
  cases frames with
  | nil => exact absurd rfl some_open
  | cons frame frames => rfl

/-- The end of an item fills the slot in hand. -/
inductive Fills (taken : Nat) : List Frame ⊕ RedisReply → Progress Parse RedisReply Failure → Prop
    where
  | complete (reply : RedisReply) : Fills taken (.inr reply) (.next .initial taken (some reply))
  | next {later : List Frame} {next : Parse} (builds : Builds later none next) :
      Fills taken (.inl later) (.next next taken none)

theorem finish_fills {frames : List Frame} {type : Option ReplyType} {parse : Parse}
    (builds : Builds frames type parse) (node : RedisReply) (taken : Nat) :
    Fills taken (fill frames node) (finish taken (completeAt parse node)) := by
  obtain ⟨cur, tasks, stack, -, idx, parents⟩ := builds.top
  have moves := moveToNextTask_moves parents idx node
  simp only [completeAt, stack, builds.reply, store_parents parents idx, bind, Except.bind]
  generalize moveToNextTask (cur :: tasks) = moved at moves
  generalize filled : fill frames node = result at moves
  generalize plug frames node = root at moves
  cases moves with
  | complete => exact .complete root
  | next some_open type' idx' parents' same =>
    exact .next ⟨⟨_, _, rfl, type', idx', parents'⟩, by rw [shown_of_ne some_open, same]⟩

/-- The array of an opened frame. -/
def Frame.opened (count : Nat) : Frame := ⟨[], count - 1⟩

theorem beginArray_builds {frames : List Frame} {parse : Parse} {count : Nat}
    (builds : Builds frames (some .REDIS_REPLY_ARRAY) parse) (positive : 0 < count) :
    ∃ next, beginArray parse count (.array (List.replicate count .null)) = .ok next ∧
      Builds (Frame.opened count :: frames) none next := by
  obtain ⟨cur, tasks, stack, type, idx, parents⟩ := builds.top
  simp only [beginArray, stack, builds.reply, store_parents parents idx, bind, Except.bind]
  refine ⟨_, rfl, ⟨firstElement, { cur with elements := count, obj := path frames } :: tasks,
    ?_, rfl, rfl, ?_⟩, ?_⟩
  · simp only [openArray, stack, slotPath_parents parents idx]
  · exact .cons type (by simp only [Frame.opened, List.length_nil]; omega) rfl idx parents
  · obtain ⟨fewer, rfl⟩ := Nat.exists_eq_succ_of_ne_zero (Nat.ne_of_gt positive)
    rfl

/-! ### Safety -/

/-- A count from the wire for which an array is made that has a slot for each of its elements. -/
def Openable (elements : Int) : Prop :=
  elements = -1 ∨ 0 < toInt32 elements ∨ toInt32 elements = 0 ∧ elements ≤ 0
  deriving Decidable

/-- Every count behind a `*` is one of these. -/
def CountsOpenable (fed : List Byte) : Prop :=
  ∀ rest, 0x2a :: rest <:+ fed → Openable (readLongLong rest)

def headOpenable : List Byte → Bool
  | [] => true
  | byte :: rest => byte != 0x2a || Openable (readLongLong rest)

instance decidableCountsOpenable (fed : List Byte) : Decidable (CountsOpenable fed) :=
  decidable_of_iff (fed.tails.all headOpenable = true) (by
    simp only [List.all_eq_true, List.mem_tails]
    constructor
    · intro heads rest behind
      have head := heads _ behind
      simpa [headOpenable] using head
    · intro counts tail behind
      cases tail with
      | nil => rfl
      | cons byte rest =>
        simp only [headOpenable, Bool.or_eq_true, bne_iff_ne, decide_eq_true_eq]
        by_cases star : byte = 0x2a
        · exact .inr (counts rest (star ▸ behind))
        · exact .inl star)

/-- The decoder is somewhere in the bytes that have been fed. -/
structure Within (fed : List Byte) (frames : List Frame) (type : Option ReplyType) (parse : Parse)
    (bytes : List Byte) : Prop where
  builds : Builds frames type parse
  behind : bytes <:+ fed
  star : type = some .REDIS_REPLY_ARRAY → 0x2a :: bytes <:+ fed
  sound : type ≠ some .REDIS_REPLY_NIL

theorem typeOfByte_array {byte : Byte} (array : typeOfByte byte = some .REDIS_REPLY_ARRAY) :
    byte = 0x2a := by
  unfold typeOfByte at array
  repeat' split at array
  all_goals first | assumption | cases array

/-- The step is not refused, and leads to a state of the same kind. -/
inductive Safe (fed bytes : List Byte) : Progress Parse RedisReply Failure → Prop where
  | starved : Safe fed bytes .starved
  | error (error : ReaderError) : Safe fed bytes (.failed (.error error))
  | next {frames : List Frame} {type : Option ReplyType} {parse : Parse} {count : Nat}
      {out : Option RedisReply} (within : Within fed frames type parse (bytes.drop count)) :
      Safe fed bytes (.next parse count out)

section Step
variable {fed bytes : List Byte} {frames : List Frame} {type : Option ReplyType} {parse : Parse}

theorem finish_safe (within : Within fed frames type parse bytes) (node : RedisReply)
    (taken : Nat) : Safe fed bytes (finish taken (completeAt parse node)) := by
  have fills := finish_fills within.builds node taken
  have behind := (List.drop_suffix taken bytes).trans within.behind
  generalize finish taken (completeAt parse node) = progress at fills
  generalize fill frames node = result at fills
  cases fills with
  | complete reply => exact .next ⟨initial_builds, behind, nofun, nofun⟩
  | next builds => exact .next ⟨builds, behind, nofun, nofun⟩

theorem lineStep_safe (within : Within fed frames type parse bytes) (kind : ReplyType) :
    Safe fed bytes (lineStep parse kind bytes) := by
  unfold lineStep
  split
  · exact finish_safe within _ _
  · exact .starved

theorem bulkStep_safe (within : Within fed frames type parse bytes) :
    Safe fed bytes (bulkStep parse bytes) := by
  unfold bulkStep
  split
  · simp only
    split
    · exact finish_safe within _ _
    · split
      · exact finish_safe within _ _
      · exact .starved
  · exact .starved

theorem arrayStep_safe (within : Within fed frames (some .REDIS_REPLY_ARRAY) parse bytes)
    (counts : CountsOpenable fed) : Safe fed bytes (arrayStep parse bytes) := by
  have openable := counts bytes (within.star rfl)
  unfold arrayStep
  split
  · next s found =>
    simp only
    split
    · exact finish_safe within _ _
    · next counted =>
      have size : 0 < toInt32 (readLongLong bytes) ∨
          toInt32 (readLongLong bytes) = 0 ∧ readLongLong bytes ≤ 0 :=
        openable.resolve_left counted
      have created : createArray (toInt32 (readLongLong bytes)) =
          .ok (.array (List.replicate (toInt32 (readLongLong bytes)).toNat .null)) := by
        rw [createArray, if_neg]
        omega
      rw [created]
      simp only
      split
      · have positive : 0 < (toInt32 (readLongLong bytes)).toNat := by omega
        obtain ⟨next, begun, builds⟩ := beginArray_builds within.builds positive
        rw [Int.toNat_of_nonneg (by omega)] at begun
        rw [begun]
        exact .next ⟨builds, (List.drop_suffix _ _).trans within.behind, nofun, nofun⟩
      · exact finish_safe within _ _
  · exact .starved

theorem step_safe (within : Within fed frames type parse bytes) (counts : CountsOpenable fed) :
    Safe fed bytes (step parse bytes) := by
  obtain ⟨cur, tasks, stack, typed, idx, parents⟩ := within.builds.top
  simp only [step, stack, typed]
  cases type with
  | some kind =>
    cases kind with
    | REDIS_REPLY_STRING => exact bulkStep_safe within
    | REDIS_REPLY_ARRAY => exact arrayStep_safe within counts
    | REDIS_REPLY_INTEGER => exact lineStep_safe within _
    | REDIS_REPLY_NIL => exact absurd rfl within.sound
    | REDIS_REPLY_STATUS => exact lineStep_safe within _
    | REDIS_REPLY_ERROR => exact lineStep_safe within _
  | none =>
    cases bytes with
    | nil => exact .starved
    | cons byte tail =>
      simp only [typeStep]
      cases known : typeOfByte byte with
      | none => exact .error _
      | some kind =>
        simp only
        split
        · exact .error _
        · have typed' : Builds frames (some kind)
              ⟨{ cur with type := some kind } :: tasks, parse.reply⟩ :=
            ⟨⟨_, tasks, rfl, rfl, idx, parents⟩, within.builds.reply⟩
          refine .next ⟨typed', (List.drop_suffix 1 _).trans within.behind, ?_, ?_⟩
          · intro array
            rw [← typeOfByte_array (known.trans array)]
            exact within.behind
          · exact fun nil => typeOfByte_ne_nil byte (known.trans nil)

end Step

theorem steps_within {fed bytes rest : List Byte} {parse last : Parse} {outs : List RedisReply}
    (counts : CountsOpenable fed) (steps : Steps step parse bytes outs last rest)
    (start : ∃ frames type, Within fed frames type parse bytes) :
    ∃ frames type, Within fed frames type last rest := by
  induction steps with
  | refl => exact start
  | head first _ ih =>
    obtain ⟨frames, type, within⟩ := start
    have safe := step_safe within counts
    rw [first] at safe
    cases safe with
    | next within => exact ih ⟨_, _, within⟩

/-! ### The depth of the stack -/

/-- An array is not begun on the ninth level. -/
structure Shallow (parse : Parse) : Prop where
  depth : parse.rstack.length ≤ 9
  array : ∀ cur rest, parse.rstack = cur :: rest → cur.type = some .REDIS_REPLY_ARRAY →
    rest.length ≤ 7

theorem moveToNextTask_length_le {rstack moved : List ReadTask}
    (moves : moveToNextTask rstack = .ok moved) : moved.length ≤ rstack.length := by
  induction rstack with
  | nil =>
    cases moves
    exact le_rfl
  | cons cur tasks ih =>
    cases tasks with
    | nil =>
      cases moves
      exact Nat.zero_le _
    | cons prv rest =>
      rw [moveToNextTask] at moves
      split at moves
      · cases moves
      · split at moves
        · exact (ih moves).trans (Nat.le_succ _)
        · split at moves
          · cases moves
            exact le_rfl
          · cases moves

theorem finish_shallow {parse next : Parse} {node : RedisReply} {taken count : Nat}
    {out : Option RedisReply} (shallow : Shallow parse)
    (finished : finish taken (completeAt parse node) = .next next count out) : Shallow next := by
  unfold completeAt at finished
  cases stored : store parse.rstack parse.reply node with
  | error fault =>
    rw [stored] at finished
    cases finished
  | ok root =>
    cases moved : moveToNextTask parse.rstack with
    | error fault =>
      rw [stored, moved] at finished
      cases finished
    | ok rstack =>
      rw [stored, moved] at finished
      cases rstack with
      | nil =>
        cases finished
        exact ⟨by decide, fun _ _ same => by cases same; exact nofun⟩
      | cons cur tasks =>
        cases finished
        refine ⟨(moveToNextTask_length_le moved).trans shallow.depth, fun _ _ same array => ?_⟩
        cases same
        rw [moveToNextTask_top moved] at array
        cases array

theorem typedStep_shallow {parse next : Parse} {bytes : List Byte} {type : ReplyType} {count : Nat}
    {out : Option RedisReply} (shallow : Shallow parse) {cur : ReadTask} {rest : List ReadTask}
    (stack : parse.rstack = cur :: rest) (typed : cur.type = some type)
    (stepped : typedStep parse bytes type = .next next count out) : Shallow next := by
  have line : ∀ kind, lineStep parse kind bytes = .next next count out → Shallow next := by
    intro kind lined
    unfold lineStep at lined
    split at lined
    · exact finish_shallow shallow lined
    · cases lined
  cases type with
  | REDIS_REPLY_STRING =>
    simp only [typedStep, bulkStep] at stepped
    split at stepped
    · split at stepped
      · exact finish_shallow shallow stepped
      · split at stepped
        · exact finish_shallow shallow stepped
        · cases stepped
    · cases stepped
  | REDIS_REPLY_ARRAY =>
    have level := shallow.array cur rest stack typed
    simp only [typedStep, arrayStep] at stepped
    split at stepped
    · split at stepped
      · exact finish_shallow shallow stepped
      · split at stepped
        · cases stepped
        · split at stepped
          · split at stepped
            · cases stepped
            · next begun =>
              cases stepped
              unfold beginArray at begun
              cases stored : store parse.rstack parse.reply _ with
              | error fault =>
                rw [stored] at begun
                cases begun
              | ok root =>
                rw [stored] at begun
                cases begun
                simp only [openArray, stack]
                refine ⟨by simp only [List.length_cons]; omega, fun _ _ same array => ?_⟩
                cases same
                cases array
          · exact finish_shallow shallow stepped
    · cases stepped
  | REDIS_REPLY_NIL => cases stepped
  | REDIS_REPLY_INTEGER => exact line _ stepped
  | REDIS_REPLY_STATUS => exact line _ stepped
  | REDIS_REPLY_ERROR => exact line _ stepped

theorem step_shallow {parse next : Parse} {bytes : List Byte} {count : Nat}
    {out : Option RedisReply} (shallow : Shallow parse)
    (stepped : step parse bytes = .next next count out) : Shallow next := by
  unfold step at stepped
  split at stepped
  · cases stepped
  · next cur rest stack =>
    split at stepped
    · next type typed => exact typedStep_shallow shallow stack typed stepped
    · have depth := shallow.depth
      rw [stack, List.length_cons] at depth
      cases bytes with
      | nil => cases stepped
      | cons byte tail =>
        simp only [typeStep] at stepped
        split at stepped
        · cases stepped
        · split at stepped
          · cases stepped
          · next type known fits =>
            cases stepped
            refine ⟨by simp only [List.length_cons]; omega, fun _ _ same array => ?_⟩
            cases same
            have level : rest.length ≠ 8 := fun deep => fits ⟨Option.some.inj array, deep⟩
            omega

theorem steps_shallow {bytes rest : List Byte} {parse last : Parse} {outs : List RedisReply}
    (steps : Steps step parse bytes outs last rest) (shallow : Shallow parse) : Shallow last := by
  induction steps with
  | refl => exact shallow
  | head first _ ih => exact ih (step_shallow shallow first)

theorem initial_shallow : Shallow .initial :=
  ⟨by decide, fun _ _ same => by cases same; exact nofun⟩

theorem stack_le_of_ready {r : RedisReader} {parse : Parse} {bytes : List Byte}
    (ready : Ready r parse bytes) : r.rstack.length ≤ parse.rstack.length := by
  cases ready with
  | idle unread inside clean stack => rw [stack]; exact Nat.zero_le _
  | busy holds => rw [holds.stack]

/-- Whatever bytes are fed and however the calls lie between them, the stack never has more than
the nine tasks there is room for. When every count behind a `*` is one that an array can have, no
assertion fails, no negative size is allocated and no element is stored outside its array. -/
theorem reader_stays_inside (calls : List Call) (session : Session)
    (reached : run request .fresh calls = some session) :
    (session.failure = none → session.reader.rstack.length ≤ 9) ∧
      (CountsOpenable session.fed → ∀ fault, session.failure ≠ some (.fault fault)) := by
  obtain ⟨parse, bytes, follows⟩ := run_follows reached
  refine ⟨fun running => ?_, fun counts fault failed => ?_⟩
  · exact (stack_le_of_ready (follows.ready running)).trans
      (steps_shallow follows.steps initial_shallow).depth
  · obtain ⟨frames, type, within⟩ := steps_within counts follows.steps
      ⟨[], none, initial_builds, List.suffix_refl _, nofun, nofun⟩
    have safe := step_safe within counts
    rw [follows.fails _ failed] at safe
    cases safe

/-- An array of a number and an empty array. -/
def nestedArray : List Byte :=
  [0x2a, 0x32, 0x0d, 0x0a, 0x3a, 0x31, 0x0d, 0x0a, 0x2a, 0x30, 0x0d, 0x0a]

theorem reader_stays_inside_nested :
    ∃ session, run request .fresh [.feed nestedArray, .getReply] = some session ∧
      session.replies.length = 1 ∧ session.reader.rstack.length ≤ 9 ∧
      ∀ fault, session.failure ≠ some (.fault fault) := by
  have returns : (run request .fresh [.feed nestedArray, .getReply]).map (fun session =>
      (session.fed, session.replies.length, session.failure.isSome)) =
      some (nestedArray, 1, false) := by
    decide +kernel
  obtain ⟨session, reached, fields⟩ := Option.map_eq_some_iff.mp returns
  simp only [Prod.mk.injEq, Option.isSome_eq_false_iff, Option.isNone_iff_eq_none] at fields
  obtain ⟨fed, one, running⟩ := fields
  have inside := reader_stays_inside _ session reached
  have counts : CountsOpenable session.fed := by
    rw [fed]
    decide +kernel
  exact ⟨session, reached, one, inside.1 running, inside.2 counts⟩

end SNFrame.RedisClient.Builder
