import SNFrame.Library.Transition
import SNFrame.RedisClient.Decoder

/-! The reader refines the decoder: an item that it processes is one or two steps, and a call of
`redisReplyReaderGetReply` is the steps up to the next reply, if the bytes suffice for one. A
client feeds the reader and asks it for replies in any order. -/

namespace SNFrame.RedisClient.Feeding
open Library.Octet Library.Incremental Library.Transition Reader Decoder

/-- The reader stands at a state of the decoder, in the middle of a reply. -/
structure Holds (r : RedisReader) (parse : Parse) (bytes : List Byte) : Prop where
  unread : r.unread = bytes
  inside : r.pos ≤ r.buf.chars.length
  clean : r.error = none
  stack : r.rstack = parse.rstack
  reply : r.reply = parse.reply
  busy : ∃ cur rest, parse.rstack = cur :: rest ∧ cur.type ≠ some .REDIS_REPLY_NIL ∧
    (cur.type = some .REDIS_REPLY_ARRAY → rest.length ≠ 8)

/-- A reply is complete, and the bytes behind it are not read yet. -/
structure Done (r : RedisReader) (reply : RedisReply) (bytes : List Byte) : Prop where
  unread : r.unread = bytes
  inside : r.pos ≤ r.buf.chars.length
  clean : r.error = none
  stack : r.rstack = []
  reply : r.reply = some reply

/-- Where a step of the decoder leads. -/
inductive After (r : RedisReader) : Parse → List Byte → Option RedisReply → Prop where
  | next {parse : Parse} {bytes : List Byte} (holds : Holds r parse bytes) :
      After r parse bytes none
  | done {reply : RedisReply} {bytes : List Byte} (done : Done r reply bytes) :
      After r .initial bytes (some reply)

theorem unread_advance (r : RedisReader) (count : Nat) :
    ({ r with pos := r.pos + count } : RedisReader).unread = r.unread.drop count := by
  simp only [RedisReader.unread, List.drop_drop]

theorem unread_length (r : RedisReader) : r.unread.length = r.buf.chars.length - r.pos :=
  List.length_drop ..

theorem Holds.room {r : RedisReader} {parse : Parse} {bytes : List Byte}
    (holds : Holds r parse bytes) : r.pos + bytes.length = r.buf.chars.length := by
  have inside := holds.inside
  rw [← holds.unread, unread_length]
  omega

/-! ### Items -/

theorem moveToNextTask_top {rstack : List ReadTask} {cur : ReadTask} {rest : List ReadTask}
    (moved : moveToNextTask rstack = .ok (cur :: rest)) : cur.type = none := by
  induction rstack with
  | nil => cases moved
  | cons task tasks ih =>
    cases tasks with
    | nil => cases moved
    | cons prv below =>
      rw [moveToNextTask] at moved
      split at moved
      · cases moved
      · split at moved
        · exact ih moved
        · split at moved
          · cases moved
            rfl
          · cases moved

/-- What an item has come to. -/
inductive Processed (step : Progress Parse RedisReply Failure) (bytes : List Byte)
    (r : RedisReader) : Except Fault (Bool × RedisReader) → Prop where
  | fault {fault : Fault} (fails : step = .failed (.fault fault)) :
      Processed step bytes r (.error fault)
  | starved (waits : step = .starved) : Processed step bytes r (.ok (false, r))
  | next {next : Parse} {count : Nat} {out : Option RedisReply} {r' : RedisReader}
      (moved : step = .next next count out) (after : After r' next (bytes.drop count) out) :
      Processed step bytes r (.ok (true, r'))

/-- The end of an item of the given length: `complete` is `finish`. -/
theorem complete_processed {r : RedisReader} {parse : Parse} {bytes : List Byte}
    (holds : Holds r parse bytes) (node : RedisReply) {taken : Nat} (fits : taken ≤ bytes.length) :
    Processed (finish taken (completeAt parse node)) bytes r (do
      .ok (true, ← complete { r with pos := r.pos + taken } node)) := by
  have room := holds.room
  simp only [complete, completeAt, holds.stack, holds.reply]
  cases stored : store parse.rstack parse.reply node with
  | error fault => exact .fault rfl
  | ok root =>
    cases moved : moveToNextTask parse.rstack with
    | error fault => exact .fault rfl
    | ok rstack =>
      cases rstack with
      | nil =>
        refine .next rfl (.done ⟨?_, ?_, holds.clean, rfl, rfl⟩)
        · rw [← holds.unread]
          exact unread_advance r taken
        · change r.pos + taken ≤ r.buf.chars.length
          omega
      | cons cur rest =>
        refine .next rfl (.next ⟨?_, ?_, holds.clean, rfl, rfl, cur, rest, rfl, ?_, ?_⟩)
        · rw [← holds.unread]
          exact unread_advance r taken
        · change r.pos + taken ≤ r.buf.chars.length
          omega
        · rw [moveToNextTask_top moved]
          exact nofun
        · rw [moveToNextTask_top moved]
          exact nofun

theorem readLine_eq {r : RedisReader} {parse : Parse} {bytes : List Byte}
    (holds : Holds r parse bytes) : readLine r =
      (firstNewline bytes).map fun len => (bytes, len, { r with pos := r.pos + (len + 2) }) := by
  rw [readLine, seekNewline_eq, holds.unread]

theorem processLineItem_processed {r : RedisReader} {parse : Parse} {bytes : List Byte}
    (holds : Holds r parse bytes) (type : ReplyType) :
    Processed (lineStep parse type bytes) bytes r (processLineItem r type) := by
  rw [processLineItem, lineStep, readLine_eq holds]
  cases found : firstNewline bytes with
  | none => exact .starved rfl
  | some len => exact complete_processed holds _ (firstNewline_le found)

theorem processBulkItem_processed {r : RedisReader} {parse : Parse} {bytes : List Byte}
    (holds : Holds r parse bytes) :
    Processed (bulkStep parse bytes) bytes r (processBulkItem r) := by
  have room := holds.room
  rw [processBulkItem, bulkStep, seekNewline_eq, holds.unread]
  cases found : firstNewline bytes with
  | none => exact .starved rfl
  | some s =>
    simp only
    split
    · exact complete_processed holds .nil (firstNewline_le found)
    · by_cases whole : s + 2 + ((readLongLong bytes).toNat + 2) ≤ bytes.length
      · rw [if_pos whole, if_pos (by omega)]
        exact complete_processed holds _ whole
      · rw [if_neg whole, if_neg (by omega)]
        exact .starved rfl

theorem processMultiBulkItem_processed {r : RedisReader} {parse : Parse} {bytes : List Byte}
    (holds : Holds r parse bytes) (shallow : r.rstack.length ≠ 9) :
    Processed (arrayStep parse bytes) bytes r (processMultiBulkItem r) := by
  have room := holds.room
  rw [processMultiBulkItem, if_neg shallow, arrayStep, readLine_eq holds]
  cases found : firstNewline bytes with
  | none => exact .starved rfl
  | some s =>
    have inside := firstNewline_le found
    simp only [Option.map_some]
    split
    · exact complete_processed holds .nil inside
    · cases created : createArray (toInt32 (readLongLong bytes)) with
      | error fault => exact .fault rfl
      | ok node =>
        simp only [bind, Except.bind]
        split
        · simp only [beginArray, holds.stack, holds.reply, bind, Except.bind]
          cases stored : store parse.rstack parse.reply node with
          | error fault => exact .fault rfl
          | ok root =>
            obtain ⟨cur, rest, stack, -⟩ := holds.busy
            refine .next rfl (.next ⟨?_, ?_, holds.clean, ?_, rfl, firstElement,
              { cur with elements := toInt32 (readLongLong bytes), obj := slotPath parse.rstack } ::
                rest, ?_, nofun, nofun⟩)
            · rw [← holds.unread]
              exact unread_advance r (s + 2)
            · change r.pos + (s + 2) ≤ r.buf.chars.length
              omega
            · simp only [openArray, stack]
            · simp only [openArray, stack]
        · exact complete_processed holds node inside

theorem processTyped_processed {r : RedisReader} {parse : Parse} {bytes : List Byte}
    (holds : Holds r parse bytes) {cur : ReadTask} {rest : List ReadTask} {type : ReplyType}
    (stack : parse.rstack = cur :: rest) (typed : cur.type = some type) :
    Processed (step parse bytes) bytes r (processTyped r type) := by
  obtain ⟨cur', rest', stack', sound, shallow⟩ := holds.busy
  cases stack.symm.trans stack'
  simp only [step, stack, typed]
  cases type with
  | REDIS_REPLY_STRING => exact processBulkItem_processed holds
  | REDIS_REPLY_ARRAY =>
    refine processMultiBulkItem_processed holds ?_
    have few := shallow typed
    rw [holds.stack, stack, List.length_cons]
    omega
  | REDIS_REPLY_INTEGER => exact processLineItem_processed holds _
  | REDIS_REPLY_NIL => exact absurd typed sound
  | REDIS_REPLY_STATUS => exact processLineItem_processed holds _
  | REDIS_REPLY_ERROR => exact processLineItem_processed holds _

/-- Where the reader is when it stops processing, or after one more item. -/
inductive Reached (parse : Parse) (bytes : List Byte) (r : RedisReader) : Prop where
  | waiting {next : Parse} {rest : List Byte} (steps : Steps step parse bytes [] next rest)
      (waits : step next rest = .starved) (holds : Holds r next rest)
  | complete {rest : List Byte} {reply : RedisReply}
      (steps : Steps step parse bytes [reply] .initial rest) (done : Done r reply rest)
  | error {next : Parse} {rest : List Byte} {error : ReaderError}
      (steps : Steps step parse bytes [] next rest)
      (fails : step next rest = .failed (.error error)) (reported : r.error = some error)
      (stack : r.rstack = []) (buf : r.buf = sdsempty)

/-- A fault of the reader is one of the decoder. -/
def Faults (parse : Parse) (bytes : List Byte) (fault : Fault) : Prop :=
  ∃ next rest, Steps step parse bytes [] next rest ∧ step next rest = .failed (.fault fault)

/-- What one call of `processItem` has come to. -/
inductive Item (parse : Parse) (bytes : List Byte) : Except Fault (Bool × RedisReader) → Prop where
  | fault {fault : Fault} (faults : Faults parse bytes fault) : Item parse bytes (.error fault)
  | stop {r : RedisReader} (reached : Reached parse bytes r)
      (busy : r.rstack = [] → r.error ≠ none) :
      Item parse bytes (.ok (false, r))
  | next {next : Parse} {rest : List Byte} {out : Option RedisReply} {r : RedisReader}
      (steps : Steps step parse bytes out.toList next rest) (shorter : rest.length < bytes.length)
      (after : After r next rest out) : Item parse bytes (.ok (true, r))

theorem item_of_processed {parse begun : Parse} {bytes rest : List Byte} {r : RedisReader}
    {result : Except Fault (Bool × RedisReader)} (steps : Steps step parse bytes [] begun rest)
    (holds : Holds r begun rest) (processed : Processed (step begun rest) rest r result) :
    Item parse bytes result := by
  cases processed with
  | fault fails => exact .fault ⟨begun, rest, steps, fails⟩
  | starved waits =>
    refine .stop (.waiting steps waits holds) fun empty => ?_
    obtain ⟨cur, below, stack, -⟩ := holds.busy
    rw [holds.stack, stack] at empty
    cases empty
  | next moved after =>
    obtain ⟨positive, inside⟩ := step_stable.taken moved
    refine .next (steps.trans (.single moved)) ?_ after
    have shorter := steps.suffix.length_le
    rw [List.length_drop]
    omega

theorem typeOfByte_ne_nil (byte : Byte) : typeOfByte byte ≠ some .REDIS_REPLY_NIL := by
  unfold typeOfByte
  repeat' split
  all_goals exact nofun

theorem processItem_item {r : RedisReader} {parse : Parse} {bytes : List Byte}
    (holds : Holds r parse bytes) : Item parse bytes (processItem r) := by
  obtain ⟨cur, rest, stack, -, -⟩ := holds.busy
  simp only [processItem, holds.stack, stack]
  cases typed : cur.type with
  | some type =>
    exact item_of_processed (.refl _ _) holds (processTyped_processed holds stack typed)
  | none =>
    have stepped : ∀ bytes, step parse bytes = typeStep cur rest parse.reply bytes := by
      intro bytes
      simp only [step, stack, typed]
    cases bytes with
    | nil =>
      simp only [readByte, holds.unread]
      exact .stop (.waiting (.refl _ _) (stepped []) holds) fun empty => by
        rw [holds.stack, stack] at empty
        cases empty
    | cons byte tail =>
      have here := stepped (byte :: tail)
      have taken : readByte r = some (byte, { r with pos := r.pos + 1 }) := by
        simp only [readByte, holds.unread]
      simp only [typeStep] at here
      simp only [taken]
      cases known : typeOfByte byte with
      | none =>
        rw [known] at here
        exact .stop (.error (.refl _ _) here rfl rfl rfl) fun _ => Option.some_ne_none _
      | some type =>
        simp only [known] at here
        by_cases deep : type = .REDIS_REPLY_ARRAY ∧ rest.length = 8
        · rw [if_pos deep] at here
          obtain ⟨rfl, level⟩ := deep
          simp only [processTyped, processMultiBulkItem, List.length_cons, level, if_true]
          exact .stop (.error (.refl _ _) here rfl rfl rfl) fun _ => Option.some_ne_none _
        · rw [if_neg deep] at here
          have room := holds.room
          rw [List.length_cons] at room
          have begun : Holds
              { r with pos := r.pos + 1, rstack := { cur with type := some type } :: rest }
              ⟨{ cur with type := some type } :: rest, parse.reply⟩ tail := by
            refine ⟨?_, ?_, holds.clean, rfl, holds.reply, _, rest, rfl, ?_, ?_⟩
            · have moved := unread_advance r 1
              rw [holds.unread] at moved
              exact moved
            · change r.pos + 1 ≤ r.buf.chars.length
              omega
            · exact fun nil => typeOfByte_ne_nil byte (known.trans nil)
            · exact fun array level => deep ⟨Option.some.inj array, level⟩
          exact item_of_processed (.single here) begun (processTyped_processed begun rfl rfl)

/-! ### Replies -/

/-- What the loop over the items has come to; it never runs out of the count. -/
inductive Ended (parse : Parse) (bytes : List Byte) : Except Fault (Option RedisReader) → Prop where
  | fault {fault : Fault} (faults : Faults parse bytes fault) : Ended parse bytes (.error fault)
  | stop {r : RedisReader} (reached : Reached parse bytes r) : Ended parse bytes (.ok (some r))

theorem Reached.later {parse next : Parse} {bytes rest : List Byte} {r : RedisReader}
    (steps : Steps step parse bytes [] next rest) (reached : Reached next rest r) :
    Reached parse bytes r := by
  cases reached with
  | waiting more waits holds => exact .waiting (steps.trans more) waits holds
  | complete more done => exact .complete (steps.trans more) done
  | error more fails reported stack buf => exact .error (steps.trans more) fails reported stack buf

theorem processItems_ended (count : Nat) {r : RedisReader} {parse : Parse} {bytes : List Byte}
    (holds : Holds r parse bytes) (enough : bytes.length < count) :
    Ended parse bytes (processItems count r) := by
  induction count generalizing r parse bytes with
  | zero => omega
  | succ count ih =>
    obtain ⟨cur, rest, stack, -, -⟩ := holds.busy
    have busy : r.rstack ≠ [] := by
      rw [holds.stack, stack]
      exact nofun
    rw [processItems, if_neg busy]
    have item := processItem_item holds
    generalize processItem r = result at item
    cases item with
    | fault faults => exact .fault faults
    | stop reached => exact .stop reached
    | next steps shorter after =>
      cases after with
      | done done =>
        have stop : ∀ count r, r.rstack = [] → processItems count r = .ok (some r) := by
          intro count r empty
          cases count <;> rw [processItems, if_pos empty]
        simp only [bind, Except.bind, if_true, stop count _ done.stack]
        exact .stop (.complete steps done)
      | next begun =>
        have ended := ih begun (by omega)
        simp only [bind, Except.bind, if_true]
        generalize processItems count _ = result at ended
        cases ended with
        | fault faults =>
          obtain ⟨last, end', more, fails⟩ := faults
          exact .fault ⟨last, end', steps.trans more, fails⟩
        | stop reached => exact .stop (reached.later steps)

/-- The reader between two calls. -/
inductive Ready (r : RedisReader) (parse : Parse) (bytes : List Byte) : Prop where
  | idle (unread : r.unread = bytes) (inside : r.pos ≤ r.buf.chars.length) (clean : r.error = none)
      (stack : r.rstack = []) (reply : r.reply = none) (start : parse = .initial)
  | busy (holds : Holds r parse bytes)

/-- What a call of `redisReplyReaderGetReply` has come to. -/
inductive Answered (parse : Parse) (bytes : List Byte) :
    Except Fault (Option (Answer × RedisReader)) → Prop where
  | fault {fault : Fault} (faults : Faults parse bytes fault) : Answered parse bytes (.error fault)
  | nothing {r : RedisReader} {next : Parse} {rest : List Byte}
      (steps : Steps step parse bytes [] next rest) (waits : step next rest = .starved)
      (ready : Ready r next rest) : Answered parse bytes (.ok (some (.ok none, r)))
  | reply {r : RedisReader} {rest : List Byte} {reply : RedisReply}
      (steps : Steps step parse bytes [reply] .initial rest) (ready : Ready r .initial rest) :
      Answered parse bytes (.ok (some (.ok (some reply), r)))
  | error {r : RedisReader} {next : Parse} {rest : List Byte} {error : ReaderError}
      (steps : Steps step parse bytes [] next rest)
      (fails : step next rest = .failed (.error error)) (reported : r.error = some error) :
      Answered parse bytes (.ok (some (.err, r)))

theorem unread_discard (r : RedisReader) : (Reader.discard r).unread = r.unread := by
  unfold Reader.discard
  split
  · exact List.drop_zero
  · rfl

theorem inside_discard {r : RedisReader} (inside : r.pos ≤ r.buf.chars.length) :
    (Reader.discard r).pos ≤ (Reader.discard r).buf.chars.length := by
  unfold Reader.discard
  split
  · exact Nat.zero_le _
  · exact inside

theorem fields_discard (r : RedisReader) : (Reader.discard r).error = r.error ∧
    (Reader.discard r).rstack = r.rstack ∧ (Reader.discard r).reply = r.reply := by
  unfold Reader.discard
  split <;> exact ⟨rfl, rfl, rfl⟩

theorem holds_discard {r : RedisReader} {parse : Parse} {bytes : List Byte}
    (holds : Holds r parse bytes) : Holds (Reader.discard r) parse bytes := by
  obtain ⟨error, stack, reply⟩ := fields_discard r
  exact ⟨(unread_discard r).trans holds.unread, inside_discard holds.inside,
    error.trans holds.clean, stack.trans holds.stack, reply.trans holds.reply, holds.busy⟩

/-- Between two calls nothing can be read from an empty buffer. -/
theorem Ready.starved {r : RedisReader} {parse : Parse} (ready : Ready r parse []) :
    step parse [] = .starved := by
  cases ready with
  | idle unread inside clean stack reply start => rw [start]; rfl
  | busy holds =>
    obtain ⟨cur, rest, stack, sound, -⟩ := holds.busy
    simp only [step, stack]
    cases typed : cur.type with
    | none => rfl
    | some type =>
      cases type with
      | REDIS_REPLY_NIL => exact absurd typed sound
      | REDIS_REPLY_STRING => rfl
      | REDIS_REPLY_ARRAY => rfl
      | REDIS_REPLY_INTEGER => rfl
      | REDIS_REPLY_STATUS => rfl
      | REDIS_REPLY_ERROR => rfl

theorem Ready.begun {r : RedisReader} {parse : Parse} {bytes : List Byte}
    (ready : Ready r parse bytes) :
    Holds (if r.rstack = [] then { r with rstack := [rootTask] } else r) parse bytes := by
  cases ready with
  | idle unread inside clean stack reply start =>
    rw [if_pos stack, start]
    exact ⟨unread, inside, clean, rfl, reply, rootTask, [], rfl, nofun, nofun⟩
  | busy holds =>
    obtain ⟨cur, rest, stack, -⟩ := holds.busy
    have busy : r.rstack ≠ [] := by
      rw [holds.stack, stack]
      exact nofun
    rw [if_neg busy]
    exact holds

theorem getReply_answered {r : RedisReader} {parse : Parse} {bytes : List Byte}
    (ready : Ready r parse bytes) : Answered parse bytes (getReply r) := by
  unfold getReply
  split
  · next empty =>
    have none_unread : bytes = [] := by
      cases ready with
      | idle unread =>
        rw [← unread, RedisReader.unread, List.length_eq_zero_iff.mp empty, List.drop_nil]
      | busy holds =>
        rw [← holds.unread, RedisReader.unread, List.length_eq_zero_iff.mp empty, List.drop_nil]
    subst none_unread
    exact .nothing (.refl _ _) ready.starved ready
  · have holds := ready.begun
    simp only
    generalize (if r.rstack = [] then { r with rstack := [rootTask] } else r) = begun at holds
    have ended := processItems_ended (begun.unread.length + 1) holds (by
      rw [holds.unread]
      omega)
    generalize processItems (begun.unread.length + 1) begun = result at ended
    cases ended with
    | fault faults => exact .fault faults
    | @stop last reached =>
      simp only [bind, Except.bind]
      cases reached with
      | waiting steps waits waiting =>
        have later := holds_discard waiting
        obtain ⟨cur, rest, stack, -⟩ := waiting.busy
        rw [if_neg (by rw [later.stack, stack]; exact nofun)]
        exact .nothing steps waits (.busy later)
      | @complete rest reply steps done =>
        obtain ⟨error, stack, same⟩ := fields_discard last
        rw [if_pos (stack.trans done.stack), error, done.clean, same, done.reply]
        exact .reply steps (.idle ((unread_discard last).trans done.unread)
          (inside_discard done.inside) rfl (stack.trans done.stack) rfl rfl)
      | @error next rest error steps fails reported stack buf =>
        obtain ⟨same, empty, -⟩ := fields_discard last
        rw [if_pos (empty.trans stack), same, reported]
        exact .error steps fails rfl

/-! ### Sessions -/

/-- A reader, the bytes it has been fed and the replies it has given out. `waiting` says that the
last call asked for a reply and got none; after a failure the reader is freed. -/
structure Session where
  reader : RedisReader
  fed : List Byte
  replies : List RedisReply
  waiting : Bool
  failure : Option Failure

def Session.fresh : Session := ⟨.create, [], [], false, none⟩

inductive Call where
  | feed (buf : List Byte)
  | getReply

def Session.answered (session : Session) :
    Except Fault (Option (Answer × RedisReader)) → Option Session
  | .error fault => some { session with waiting := false, failure := some (.fault fault) }
  | .ok none => none
  | .ok (some (.ok none, r)) => some { session with reader := r, waiting := true }
  | .ok (some (.ok (some reply), r)) =>
      some { session with reader := r, replies := session.replies ++ [reply], waiting := false }
  | .ok (some (.err, r)) =>
      some { session with reader := r, waiting := false, failure := r.error.map .error }

def request (session : Session) (call : Call) : Option Session :=
  if session.failure.isSome then none
  else match call with
  | .feed buf => (Reader.feed session.reader buf).map fun r =>
      { session with reader := r, fed := session.fed ++ buf, waiting := false }
  | .getReply => session.answered (Reader.getReply session.reader)

/-- There is nothing more to come from the bytes that have been fed. -/
def Session.Exhausted (session : Session) : Prop :=
  session.waiting = true ∨ session.failure.isSome = true

/-- The session is some way along the decoding of what it has been fed. -/
structure Follows (session : Session) (parse : Parse) (bytes : List Byte) : Prop where
  steps : Steps step .initial session.fed session.replies parse bytes
  ready : session.failure = none → Ready session.reader parse bytes
  waits : session.waiting = true → step parse bytes = .starved
  fails : ∀ failure, session.failure = some failure → step parse bytes = .failed failure

theorem fresh_follows : Follows .fresh .initial [] where
  steps := .refl _ _
  ready _ := .idle rfl le_rfl rfl rfl rfl rfl
  waits := nofun
  fails := nofun

/-- What is fed lies behind what is not read yet. -/
theorem feed_spec {r later : RedisReader} {buf : List Byte}
    (fed : Reader.feed r buf = some later) :
    ∃ cat : Sds, later = { r with buf := cat } ∧ cat.chars = r.buf.chars ++ buf := by
  obtain ⟨cat, appended, rfl⟩ := Option.map_eq_some_iff.mp fed
  exact ⟨cat, rfl, chars_sdscatlen appended⟩

theorem Holds.feed {r later : RedisReader} {parse : Parse} {bytes buf : List Byte}
    (holds : Holds r parse bytes) (fed : Reader.feed r buf = some later) :
    Holds later parse (bytes ++ buf) := by
  obtain ⟨cat, rfl, chars⟩ := feed_spec fed
  refine ⟨?_, ?_, holds.clean, holds.stack, holds.reply, holds.busy⟩
  · rw [← holds.unread, RedisReader.unread, chars]
    exact List.drop_append_of_le_length holds.inside
  · rw [chars, List.length_append]
    exact holds.inside.trans (Nat.le_add_right _ _)

theorem Ready.feed {r later : RedisReader} {parse : Parse} {bytes buf : List Byte}
    (ready : Ready r parse bytes) (fed : Reader.feed r buf = some later) :
    Ready later parse (bytes ++ buf) := by
  cases ready with
  | idle unread inside clean stack reply start =>
    obtain ⟨cat, rfl, chars⟩ := feed_spec fed
    refine .idle ?_ ?_ clean stack reply start
    · rw [← unread, RedisReader.unread, chars]
      exact List.drop_append_of_le_length inside
    · rw [chars, List.length_append]
      exact inside.trans (Nat.le_add_right _ _)
  | busy holds => exact .busy (holds.feed fed)

theorem answered_follows {session : Session} {parse : Parse} {bytes : List Byte}
    (follows : Follows session parse bytes) (running : session.failure = none) :
    ∃ next parse bytes, session.answered (Reader.getReply session.reader) = some next ∧
      Follows next parse bytes := by
  have answered := getReply_answered (follows.ready running)
  generalize Reader.getReply session.reader = result at answered
  cases answered with
  | fault faults =>
    obtain ⟨last, rest, more, fails⟩ := faults
    have steps := follows.steps.trans more
    rw [List.append_nil] at steps
    exact ⟨_, last, rest, rfl, steps, nofun, nofun, fun _ same => Option.some.inj same ▸ fails⟩
  | @nothing r last rest more waits ready =>
    have steps := follows.steps.trans more
    rw [List.append_nil] at steps
    exact ⟨_, last, rest, rfl, steps, fun _ => ready, fun _ => waits,
      fun _ same => nomatch running.symm.trans same⟩
  | @reply r rest reply more ready =>
    exact ⟨_, _, rest, rfl, follows.steps.trans more, fun _ => ready, nofun,
      fun _ same => nomatch running.symm.trans same⟩
  | @error r last rest error more fails reported =>
    have steps := follows.steps.trans more
    rw [List.append_nil] at steps
    refine ⟨_, last, rest, rfl, steps, fun none => ?_, nofun, fun failure same => ?_⟩
    · rw [reported] at none
      cases none
    · rw [reported] at same
      exact Option.some.inj same ▸ fails

theorem request_follows {session next : Session} {call : Call} {parse : Parse} {bytes : List Byte}
    (follows : Follows session parse bytes) (stepped : request session call = some next) :
    ∃ parse bytes, Follows next parse bytes := by
  unfold request at stepped
  split at stepped
  · cases stepped
  · next running =>
    have none_yet : session.failure = none := Option.not_isSome_iff_eq_none.mp running
    cases call with
    | feed buf =>
      obtain ⟨later, fed, rfl⟩ := Option.map_eq_some_iff.mp stepped
      exact ⟨parse, bytes ++ buf, follows.steps.append step_stable buf,
        fun _ => (follows.ready none_yet).feed fed, nofun,
        fun _ same => nomatch none_yet.symm.trans same⟩
    | getReply =>
      obtain ⟨last, parse', bytes', answered, later⟩ := answered_follows follows none_yet
      cases answered.symm.trans stepped
      exact ⟨parse', bytes', later⟩

theorem run_follows {calls : List Call} {session : Session}
    (reached : run request .fresh calls = some session) :
    ∃ parse bytes, Follows session parse bytes :=
  run_invariant (fun session => ∃ parse bytes, Follows session parse bytes)
    (fun _ _ _ held stepped => by
      obtain ⟨parse, bytes, follows⟩ := held
      exact request_follows follows stepped)
    ⟨_, _, fresh_follows⟩ reached

/-- Where an exhausted session ends up. -/
def Session.stand (session : Session) (parse : Parse) (bytes : List Byte) :
    Stand Parse Byte Failure :=
  match session.failure with
  | none => .waiting parse bytes
  | some failure => .failed failure

theorem Session.stand_failed {session : Session} {parse : Parse} {bytes : List Byte}
    {failure : Failure} (failed : session.failure = some failure) :
    session.stand parse bytes = .failed failure := by
  rw [Session.stand, failed]

theorem Session.failure_of_stand {session other : Session} {parse parse' : Parse}
    {bytes bytes' : List Byte} (same : session.stand parse bytes = other.stand parse' bytes') :
    session.failure = other.failure := by
  simp only [Session.stand] at same
  cases failed : session.failure with
  | none =>
    cases known : other.failure with
    | none => rfl
    | some failure =>
      rw [failed, known] at same
      cases same
  | some failure =>
    cases known : other.failure with
    | none =>
      rw [failed, known] at same
      cases same
    | some also =>
      rw [failed, known] at same
      cases same
      rfl

/-- What an exhausted session has given out is the decoding of what it has been fed. -/
theorem Follows.decodes {session : Session} {parse : Parse} {bytes : List Byte}
    (follows : Follows session parse bytes) (exhausted : session.Exhausted) :
    Decodes step .initial session.fed session.replies (session.stand parse bytes) := by
  have last : Decodes step parse bytes [] (session.stand parse bytes) := by
    unfold Session.stand
    cases failed : session.failure with
    | some failure => exact .failed (follows.fails failure failed)
    | none =>
      refine .starved (follows.waits (exhausted.resolve_right ?_))
      rw [failed]
      exact nofun
  have whole := follows.steps.decodes last
  rwa [List.append_nil] at whole

/-- However a stream of bytes is cut into pieces and wherever the calls for a reply stand between
them, as long as what is buffered stays below 2^30 bytes: the same replies come out in the same
order, and the same failure behind them; with a part of the stream the replies are a part of the
same ones. Every call for a reply returns. -/
theorem replies_independent_of_pieces (calls other : List Call) (session whole : Session)
    (reached : run request .fresh calls = some session)
    (reachedWhole : run request .fresh other = some whole)
    (shared : session.fed <+: whole.fed) (exhausted : whole.Exhausted) :
    session.replies <+: whole.replies ∧
      (session.failure.isSome = true ∨ session.waiting = true ∧ session.fed = whole.fed →
        session.replies = whole.replies ∧ session.failure = whole.failure) ∧
      (session.failure = none → (request session .getReply).isSome = true) := by
  obtain ⟨parse, bytes, follows⟩ := run_follows reached
  obtain ⟨parse', bytes', followsWhole⟩ := run_follows reachedWhole
  have decoded := followsWhole.decodes exhausted
  obtain ⟨later, total⟩ := shared
  have steps := follows.steps.append step_stable later
  rw [total] at steps
  refine ⟨steps.prefix_decodes step_stable decoded, fun settled => ?_, fun running => ?_⟩
  · cases failed : session.failure with
    | some failure =>
      have fails := step_stable.failed later (follows.fails failure failed)
      obtain ⟨same, stands⟩ := (steps.decodes (.failed fails)).deterministic decoded
      rw [List.append_nil] at same
      have stuck : session.stand parse bytes = .failed failure := Session.stand_failed failed
      exact ⟨same, failed.symm.trans (Session.failure_of_stand (stuck.trans stands))⟩
    | none =>
      obtain ⟨asked, fed⟩ := settled.resolve_left (by rw [failed]; exact nofun)
      have mine := follows.decodes (.inl asked)
      rw [fed] at mine
      obtain ⟨same, stands⟩ := mine.deterministic decoded
      exact ⟨same, failed.symm.trans (Session.failure_of_stand stands)⟩
  · obtain ⟨next, -, -, answered, -⟩ := answered_follows follows running
    rw [request, running, Option.isSome_none, if_neg Bool.false_ne_true, answered]
    rfl

/-- `+OK`, a number and the beginning of a bulk string. -/
def threeReplies : List Byte :=
  [0x2b, 0x4f, 0x4b, 0x0d, 0x0a, 0x3a, 0x31, 0x0d, 0x0a, 0x24, 0x32, 0x0d, 0x0a, 0x61]

theorem replies_independent_of_pieces_three :
    ∃ session whole,
      run request .fresh [.feed (threeReplies.take 4), .getReply, .feed (threeReplies.drop 4),
        .getReply, .getReply, .getReply] = some session ∧
      run request .fresh [.feed threeReplies, .getReply, .getReply, .getReply] = some whole ∧
      session.replies.length = 2 ∧ session.replies = whole.replies ∧
      session.failure = whole.failure := by
  have first : (run request .fresh [.feed (threeReplies.take 4), .getReply,
      .feed (threeReplies.drop 4), .getReply, .getReply, .getReply]).map (fun session =>
      (session.fed, session.waiting, session.replies.length)) = some (threeReplies, true, 2) := by
    decide +kernel
  have second : (run request .fresh [.feed threeReplies, .getReply, .getReply, .getReply]).map
      (fun whole => (whole.fed, whole.waiting)) = some (threeReplies, true) := by
    decide +kernel
  obtain ⟨session, reached, fields⟩ := Option.map_eq_some_iff.mp first
  obtain ⟨whole, reachedWhole, fieldsWhole⟩ := Option.map_eq_some_iff.mp second
  simp only [Prod.mk.injEq] at fields fieldsWhole
  have same : session.fed = whole.fed := fields.1.trans fieldsWhole.1.symm
  have result := replies_independent_of_pieces _ _ session whole reached reachedWhole
    (same ▸ List.prefix_refl _) (.inl fieldsWhole.2)
  exact ⟨session, whole, reached, reachedWhole, fields.2.2,
    result.2.1 (.inr ⟨fields.2.1, same⟩)⟩

end SNFrame.RedisClient.Feeding
