import SNFrame.RedisClient.Command

/-! The Redis client: a blocking context with its output buffer and its reader, and the class
`Redis`, which gives the context up at the first failure. The results of the calls of `read` and
`write` are given; a call that gets no more of them does not return, and one under which a buffer
would get too long has no result. -/

namespace SNFrame.RedisClient.Client
open Library.Octet Library.Incremental Library.Transition
open Reader Decoder Feeding Builder Protocol Command

inductive ContextError where
  | REDIS_ERR_IO
  | REDIS_ERR_EOF
  | REDIS_ERR_PROTOCOL (error : Option ReaderError)

open ContextError

/-- What has gone over a socket. -/
structure Socket where
  sent : List Byte
  received : List Byte

/-- The struct `redisContext`. `block` is `flags & REDIS_BLOCK`. -/
structure RedisContext where
  fd : Socket
  err : Option ContextError
  block : Bool
  obuf : Sds
  reader : Option RedisReader

/-- The context of `redisConnectWithTimeout`, when it has connected. -/
def redisConnected : RedisContext := ⟨⟨[], []⟩, none, true, sdsempty, none⟩

inductive ReadResult where
  | bytes (buf : List Byte)
  | again
  | failed
  deriving DecidableEq

inductive WriteResult where
  | wrote (count : Nat)
  | again
  | failed
  deriving DecidableEq

/-- `__redisCreateReplyReader`. -/
def RedisContext.someReader (c : RedisContext) : RedisReader := c.reader.getD .create

/-- `redisBufferRead`; false is REDIS_ERR. No bytes are the end of the stream. -/
def redisBufferRead (c : RedisContext) : ReadResult → Option (Bool × RedisContext)
  | .again => some (true, c)
  | .failed => some (false, { c with err := some REDIS_ERR_IO })
  | .bytes [] => some (false, { c with err := some REDIS_ERR_EOF })
  | .bytes buf => (feed c.someReader buf).map fun r => (true, { c with
      fd := { c.fd with received := c.fd.received ++ buf }, reader := some r })

/-- `redisBufferWrite` on a buffer that is not empty. -/
def redisBufferWrite (c : RedisContext) : WriteResult → Bool × RedisContext
  | .again => (true, c)
  | .failed => (false, { c with err := some REDIS_ERR_IO })
  | .wrote count => (true, { c with
      fd := { c.fd with sent := c.fd.sent ++ c.obuf.chars.take count }
      obuf := sdsrange c.obuf count })

/-- Where a call has come to, and the results that it has not used. -/
structure Called where
  answer : Answer
  context : RedisContext
  writes : List WriteResult
  reads : List ReadResult

/-- None when the call has no result. -/
abbrev Returns := Except Fault (Option Called)

/-- `redisGetReplyFromReader`. -/
def redisGetReplyFromReader (c : RedisContext) : Except Fault (Option (Answer × RedisContext)) :=
  match getReply c.someReader with
  | .error fault => .error fault
  | .ok none => .ok none
  | .ok (some (.err, r)) =>
      .ok (some (.err, { c with reader := some r, err := some (REDIS_ERR_PROTOCOL r.error) }))
  | .ok (some (.ok reply, r)) => .ok (some (.ok reply, { c with reader := some r }))

/-- Write until done. -/
def writeUntilDone : List WriteResult → RedisContext →
    Option (Bool × RedisContext × List WriteResult)
  | [], c => if c.obuf.chars = [] then some (true, c, []) else none
  | result :: results, c =>
      if c.obuf.chars = [] then some (true, c, result :: results)
      else match redisBufferWrite c result with
      | (false, c) => some (false, c, results)
      | (true, c) => writeUntilDone results c

/-- Read until there is a reply. -/
def readUntilReply (writes : List WriteResult) : List ReadResult → RedisContext → Returns
  | [], _ => .ok none
  | result :: results, c =>
      match redisBufferRead c result with
      | none => .ok none
      | some (false, c) => .ok (some ⟨.err, c, writes, results⟩)
      | some (true, c) =>
          match redisGetReplyFromReader c with
          | .error fault => .error fault
          | .ok none => .ok none
          | .ok (some (.err, c)) => .ok (some ⟨.err, c, writes, results⟩)
          | .ok (some (.ok (some reply), c)) => .ok (some ⟨.ok (some reply), c, writes, results⟩)
          | .ok (some (.ok none, c)) => readUntilReply writes results c

/-- `redisGetReply`. -/
def redisGetReply (c : RedisContext) (writes : List WriteResult) (reads : List ReadResult) :
    Returns :=
  match redisGetReplyFromReader c with
  | .error fault => .error fault
  | .ok none => .ok none
  | .ok (some (.err, c)) => .ok (some ⟨.err, c, writes, reads⟩)
  | .ok (some (.ok (some reply), c)) => .ok (some ⟨.ok (some reply), c, writes, reads⟩)
  | .ok (some (.ok none, c)) =>
      if c.block then
        match writeUntilDone writes c with
        | none => .ok none
        | some (false, c, writes) => .ok (some ⟨.err, c, writes, reads⟩)
        | some (true, c, writes) => readUntilReply writes reads c
      else .ok (some ⟨.ok none, c, writes, reads⟩)

/-- `redisCommandArgv`. -/
def redisCommandArgv (c : RedisContext) (argv : List (List Byte)) (argvlen : Option (List Nat))
    (writes : List WriteResult) (reads : List ReadResult) : Returns :=
  match redisFormatCommandArgv argv argvlen with
  | .error fault => .error fault
  | .ok cmd =>
      match sdscatlen c.obuf cmd with
      | none => .ok none
      | some obuf =>
          let c := { c with obuf := obuf }
          if c.block then redisGetReply c writes reads
          else .ok (some ⟨.ok none, c, writes, reads⟩)

/-! ### The class -/

/-- A call of `Redis::query` with the results that `write` and `read` give it. -/
structure Query where
  command : Argv
  writes : List WriteResult
  reads : List ReadResult

/-- The socket fails, or the server closes it. -/
def ReadResult.Ends (result : ReadResult) : Prop := result = .failed ∨ result = .bytes []
  deriving Decidable

/-- Among the results is one with which the socket is lost. -/
def Fails (writes : List WriteResult) (reads : List ReadResult) : Prop :=
  .failed ∈ writes ∨ ∃ result ∈ reads, result.Ends
  deriving Decidable

/-- The socket fails or is closed under the call. -/
def Query.Broken (query : Query) : Prop := Fails query.writes query.reads
  deriving Decidable

/-- The class `Redis`, its calls with what they returned, and what has been sent to the server. -/
structure Redis where
  m_context : Option RedisContext
  crashed : Option Fault
  log : List (Query × Option RedisReply)
  sent : List Byte

def Redis.connected : Redis := ⟨some redisConnected, none, [], []⟩

def bytesOf : List ReadResult → List Byte
  | [] => []
  | .bytes buf :: results => buf ++ bytesOf results
  | _ :: results => bytesOf results

/-- The result NULL frees the context. -/
def Redis.returned (redis : Redis) (query : Query) (called : Called) : Redis :=
  match called.answer with
  | .ok (some reply) => { redis with
      m_context := some called.context
      log := redis.log ++ [(query, some reply)]
      sent := called.context.fd.sent }
  | _ => { redis with
      m_context := none
      log := redis.log ++ [(query, none)]
      sent := called.context.fd.sent }

/-- `Redis::query`. What the server sends is a stream of replies; the call uses all the results. -/
def Redis.query (wires : List Wire) (redis : Redis) (query : Query) : Option Redis :=
  match redis.crashed, redis.m_context with
  | some _, _ => none
  | none, none =>
      if query.writes.isEmpty && query.reads.isEmpty then
        some { redis with log := redis.log ++ [(query, none)] }
      else none
  | none, some c =>
      if c.fd.received ++ bytesOf query.reads <+: stream wires then
        match redisCommandArgv c query.command.argv query.command.argvlen query.writes
          query.reads with
        | .error fault => some { redis with crashed := some fault }
        | .ok none => none
        | .ok (some called) =>
            if called.writes.isEmpty && called.reads.isEmpty then some (redis.returned query called)
            else none
      else none

/-! ### One call -/

section Serving
variable {wires : List Wire} (fits : ∀ wire ∈ wires, wire.Fits 8)

/-- The reader has given out these replies of the stream. -/
structure Serves (wires : List Wire) (c : RedisContext) (replies : List RedisReply) : Prop where
  block : c.block = true
  follows : ∃ parse bytes, Steps step .initial c.fd.received replies parse bytes ∧
    Ready c.someReader parse bytes
  fed : c.fd.received <+: stream wires

/-- What has been sent and what waits in the output buffer. -/
def RedisContext.output (c : RedisContext) : List Byte := c.fd.sent ++ c.obuf.chars

/-- What the reader has answered. -/
inductive Got (wires : List Wire) (c : RedisContext) (replies : List RedisReply) :
    Except Fault (Option (Answer × RedisContext)) → Prop where
  | nothing {c' : RedisContext} (serves : Serves wires c' replies) (fd : c'.fd = c.fd)
      (obuf : c'.obuf = c.obuf) : Got wires c replies (.ok (some (.ok none, c')))
  | reply {c' : RedisContext} {reply : RedisReply} (serves : Serves wires c' (replies ++ [reply]))
      (fd : c'.fd = c.fd) (obuf : c'.obuf = c.obuf) :
      Got wires c replies (.ok (some (.ok (some reply), c')))

include fits in
theorem redisGetReplyFromReader_got {c : RedisContext} {replies : List RedisReply}
    (serves : Serves wires c replies) : Got wires c replies (redisGetReplyFromReader c) := by
  obtain ⟨parse, bytes, steps, ready⟩ := serves.follows
  have answered := getReply_answered ready
  unfold redisGetReplyFromReader
  generalize getReply c.someReader = result at answered
  cases answered with
  | fault faults =>
    obtain ⟨last, rest, more, fails⟩ := faults
    exact absurd fails (stream_not_failed fits (steps.trans more) serves.fed _)
  | error more fails =>
    exact absurd fails (stream_not_failed fits (steps.trans more) serves.fed _)
  | nothing more waits ready =>
    have whole := steps.trans more
    rw [List.append_nil] at whole
    exact .nothing ⟨serves.block, ⟨_, _, whole, ready⟩, serves.fed⟩ rfl rfl
  | reply more ready =>
    exact .reply ⟨serves.block, ⟨_, _, steps.trans more, ready⟩, serves.fed⟩ rfl rfl

/-- Writing changes what is left to write, and nothing else that a reply depends on. -/
structure Written (writes left : List WriteResult) (c c' : RedisContext) (ok : Bool) : Prop where
  output : c'.output = c.output
  received : c'.fd.received = c.fd.received
  reader : c'.reader = c.reader
  block : c'.block = c.block
  flushed : ok = true → c'.obuf.chars = []
  used : ∃ used, used ++ left = writes ∧ (.failed ∈ used ↔ ok = false)

theorem writeUntilDone_spec {writes left : List WriteResult} {c c' : RedisContext} {ok : Bool}
    (written : writeUntilDone writes c = some (ok, c', left)) : Written writes left c c' ok := by
  induction writes generalizing c with
  | nil =>
    unfold writeUntilDone at written
    split at written
    · next empty =>
      cases written
      exact ⟨rfl, rfl, rfl, rfl, fun _ => empty, [], rfl, by simp⟩
    · cases written
  | cons result results ih =>
    unfold writeUntilDone at written
    split at written
    · next empty =>
      cases written
      exact ⟨rfl, rfl, rfl, rfl, fun _ => empty, [], rfl, by simp⟩
    · cases result with
      | again =>
        obtain ⟨output, received, reader, block, flushed, used, split, fails⟩ := ih written
        exact ⟨output, received, reader, block, flushed, .again :: used, by rw [← split]; rfl,
          by simp [fails]⟩
      | failed =>
        cases written
        exact ⟨rfl, rfl, rfl, rfl, nofun, [.failed], rfl, by simp⟩
      | wrote count =>
        obtain ⟨output, received, reader, block, flushed, used, split, fails⟩ := ih written
        refine ⟨output.trans ?_, received, reader, block, flushed, .wrote count :: used,
          by rw [← split]; rfl, by simp [fails]⟩
        simp only [RedisContext.output, chars_sdsrange, List.append_assoc, List.take_append_drop]

/-- What one result of `read` has come to. -/
inductive Took (wires : List Wire) (c : RedisContext) (replies : List RedisReply)
    (result : ReadResult) (results : List ReadResult) : Option (Bool × RedisContext) → Prop where
  | full : Took wires c replies result results none
  | ended {next : RedisContext} (ends : result.Ends) (sent : next.fd.sent = c.fd.sent)
      (obuf : next.obuf = c.obuf) : Took wires c replies result results (some (false, next))
  | more {next : RedisContext} (goes : ¬result.Ends) (sent : next.fd.sent = c.fd.sent)
      (obuf : next.obuf = c.obuf) (serves : Serves wires next replies)
      (front : next.fd.received ++ bytesOf results <+: stream wires) :
      Took wires c replies result results (some (true, next))

theorem redisBufferRead_took {c : RedisContext} {replies : List RedisReply} {result : ReadResult}
    {results : List ReadResult} (serves : Serves wires c replies)
    (front : c.fd.received ++ bytesOf (result :: results) <+: stream wires) :
    Took wires c replies result results (redisBufferRead c result) := by
  cases result with
  | again => exact .more (by decide) rfl rfl serves front
  | failed => exact .ended (.inl rfl) rfl rfl
  | bytes buf =>
    cases buf with
    | nil => exact .ended (.inr rfl) rfl rfl
    | cons byte buf =>
      rw [bytesOf, ← List.append_assoc] at front
      rw [redisBufferRead]
      · cases fed : feed c.someReader (byte :: buf) with
        | none => exact .full
        | some r =>
          obtain ⟨parse, bytes, steps, ready⟩ := serves.follows
          refine .more ?_ rfl rfl ⟨serves.block, ⟨parse, bytes ++ byte :: buf,
            steps.append step_stable _, ready.feed fed⟩,
            (List.prefix_append _ _).trans front⟩ front
          rintro (same | same)
          · cases same
          · cases same
      · exact List.cons_ne_nil _ _

/-- What a call has used up while it was reading. -/
structure Kept (c : RedisContext) (writes : List WriteResult) (reads used : List ReadResult)
    (called : Called) : Prop where
  sent : called.context.fd.sent = c.fd.sent
  obuf : called.context.obuf = c.obuf
  writes : called.writes = writes
  reads : used ++ called.reads = reads

/-- What reading until there is a reply has come to. -/
inductive Read (wires : List Wire) (c : RedisContext) (replies : List RedisReply)
    (writes : List WriteResult) (reads : List ReadResult) : Returns → Prop where
  | blocked : Read wires c replies writes reads (.ok none)
  | reply {called : Called} {reply : RedisReply} {used : List ReadResult}
      (kept : Kept c writes reads used called) (answer : called.answer = .ok (some reply))
      (serves : Serves wires called.context (replies ++ [reply]))
      (sound : ∀ result ∈ used, ¬result.Ends) : Read wires c replies writes reads (.ok (some called))
  | err {called : Called} {used : List ReadResult} (kept : Kept c writes reads used called)
      (answer : called.answer = .err) (broken : ∃ result ∈ used, result.Ends) :
      Read wires c replies writes reads (.ok (some called))

theorem Kept.more {c next : RedisContext} {writes : List WriteResult}
    {reads used : List ReadResult} {called : Called} (kept : Kept next writes reads used called)
    (result : ReadResult) (sent : next.fd.sent = c.fd.sent) (obuf : next.obuf = c.obuf) :
    Kept c writes (result :: reads) (result :: used) called :=
  ⟨kept.sent.trans sent, kept.obuf.trans obuf, kept.writes, by rw [← kept.reads]; rfl⟩

theorem Read.more {c next : RedisContext} {replies : List RedisReply} {writes : List WriteResult}
    {reads : List ReadResult} {result : ReadResult} {outcome : Returns} (goes : ¬result.Ends)
    (sent : next.fd.sent = c.fd.sent) (obuf : next.obuf = c.obuf)
    (read : Read wires next replies writes reads outcome) :
    Read wires c replies writes (result :: reads) outcome := by
  cases read with
  | blocked => exact .blocked
  | reply kept answer serves sound =>
    exact .reply (kept.more result sent obuf) answer serves (List.forall_mem_cons.mpr ⟨goes, sound⟩)
  | err kept answer broken =>
    obtain ⟨other, inside, ends⟩ := broken
    exact .err (kept.more result sent obuf) answer ⟨other, List.mem_cons_of_mem _ inside, ends⟩

include fits in
theorem readUntilReply_read {writes : List WriteResult} {reads : List ReadResult}
    {c : RedisContext} {replies : List RedisReply} (serves : Serves wires c replies)
    (front : c.fd.received ++ bytesOf reads <+: stream wires) :
    Read wires c replies writes reads (readUntilReply writes reads c) := by
  induction reads generalizing c with
  | nil => exact .blocked
  | cons result results ih =>
    have took := redisBufferRead_took serves front
    rw [readUntilReply]
    generalize redisBufferRead c result = outcome at took
    cases took with
    | full => exact .blocked
    | ended ends sent obuf =>
      exact .err ⟨sent, obuf, rfl, rfl⟩ rfl ⟨result, List.mem_singleton_self result, ends⟩
    | @more next goes sent obuf serves' front' =>
      have got := redisGetReplyFromReader_got fits serves'
      simp only
      generalize redisGetReplyFromReader next = answered at got
      cases got with
      | @nothing last serving fd same =>
        exact (ih serving (by rw [fd]; exact front')).more goes (by rw [fd, sent])
          (same.trans obuf)
      | reply serving fd same =>
        exact .reply ⟨by rw [fd, sent], same.trans obuf, rfl, rfl⟩ rfl serving
          (List.forall_mem_singleton.mpr goes)

/-- The results that a call has used. It does not read before it has written everything. -/
structure Uses (writes usedWrites : List WriteResult) (reads usedReads : List ReadResult)
    (called : Called) : Prop where
  writes : usedWrites ++ called.writes = writes
  reads : usedReads ++ called.reads = reads
  flushed : usedReads ≠ [] → called.context.obuf.chars = []

/-- What a call on the context has come to. -/
inductive Replied (wires : List Wire) (output : List Byte) (replies : List RedisReply)
    (writes : List WriteResult) (reads : List ReadResult) : Returns → Prop where
  | blocked : Replied wires output replies writes reads (.ok none)
  | reply {called : Called} {reply : RedisReply} {usedWrites : List WriteResult}
      {usedReads : List ReadResult} (uses : Uses writes usedWrites reads usedReads called)
      (sound : ¬Fails usedWrites usedReads) (answer : called.answer = .ok (some reply))
      (serves : Serves wires called.context (replies ++ [reply]))
      (written : called.context.output = output) :
      Replied wires output replies writes reads (.ok (some called))
  | err {called : Called} {usedWrites : List WriteResult} {usedReads : List ReadResult}
      (uses : Uses writes usedWrites reads usedReads called) (broken : Fails usedWrites usedReads)
      (answer : called.answer = .err) (written : called.context.output = output) :
      Replied wires output replies writes reads (.ok (some called))

include fits in
theorem redisGetReply_replied {writes : List WriteResult} {reads : List ReadResult}
    {c : RedisContext} {replies : List RedisReply} (serves : Serves wires c replies)
    (front : c.fd.received ++ bytesOf reads <+: stream wires) :
    Replied wires c.output replies writes reads (redisGetReply c writes reads) := by
  have got := redisGetReplyFromReader_got fits serves
  unfold redisGetReply
  generalize redisGetReplyFromReader c = outcome at got
  cases got with
  | reply serves' fd obuf =>
    refine .reply ⟨List.nil_append writes, List.nil_append reads, absurd rfl⟩ ?_ rfl serves' ?_
    · rintro (inside | ⟨_, inside, -⟩)
      · cases inside
      · cases inside
    · rw [RedisContext.output, fd, obuf, RedisContext.output]
  | @nothing last serves' fd obuf =>
    have same : last.output = c.output := by
      rw [RedisContext.output, fd, obuf, RedisContext.output]
    simp only [serves'.block, if_true]
    cases done : writeUntilDone writes last with
    | none => exact .blocked
    | some result =>
      obtain ⟨ok, next, left⟩ := result
      obtain ⟨output, received, reader, block, flushed, used, split, fails⟩ :=
        writeUntilDone_spec done
      cases ok with
      | false =>
        exact .err ⟨split, List.nil_append reads, absurd rfl⟩ (.inl (fails.mpr rfl)) rfl
          (output.trans same)
      | true =>
        have empty := flushed rfl
        have none_failed : .failed ∉ used := fun inside => Bool.noConfusion (fails.mp inside)
        have serving : Serves wires next replies := by
          obtain ⟨parse, bytes, steps, ready⟩ := serves'.follows
          refine ⟨block.trans serves'.block, ⟨parse, bytes, ?_, ?_⟩, ?_⟩
          · rw [received]
            exact steps
          · rw [RedisContext.someReader, reader]
            exact ready
          · rw [received]
            exact serves'.fed
        have read : Read wires next replies left reads (readUntilReply left reads next) :=
          readUntilReply_read fits serving (by rw [received, fd]; exact front)
        have unchanged : ∀ called : Called, called.context.fd.sent = next.fd.sent →
            called.context.obuf = next.obuf → called.context.output = c.output := by
          intro called sent kept
          rw [RedisContext.output, sent, kept, ← same, ← output, RedisContext.output]
        simp only
        generalize readUntilReply left reads next = outcome at read
        cases read with
        | blocked => exact .blocked
        | reply kept answer serves'' sound =>
          refine .reply ⟨by rw [kept.writes, split], kept.reads, fun _ => by rw [kept.obuf, empty]⟩
            ?_ answer serves'' (unchanged _ kept.sent kept.obuf)
          rintro (inside | ⟨result, inside, ends⟩)
          · exact none_failed inside
          · exact sound result inside ends
        | err kept answer broken =>
          exact .err ⟨by rw [kept.writes, split], kept.reads, fun _ => by rw [kept.obuf, empty]⟩
            (.inr broken) answer (unchanged _ kept.sent kept.obuf)

include fits in
/-- A command goes behind what is still to be written, and the next reply is its result. -/
theorem redisCommandArgv_replied {c : RedisContext} {replies : List RedisReply} {query : Query}
    (serves : Serves wires c replies)
    (front : c.fd.received ++ bytesOf query.reads <+: stream wires) :
    Replied wires (c.output ++ query.command.bytes) replies query.writes query.reads
      (redisCommandArgv c query.command.argv query.command.argvlen query.writes query.reads) := by
  unfold redisCommandArgv
  simp only [query.command.formatted]
  cases appended : sdscatlen c.obuf query.command.bytes with
  | none => exact .blocked
  | some obuf =>
    have serving : Serves wires { c with obuf := obuf } replies :=
      ⟨serves.block, serves.follows, serves.fed⟩
    have output : RedisContext.output { c with obuf := obuf } =
        c.output ++ query.command.bytes := by
      rw [RedisContext.output, chars_sdscatlen appended, RedisContext.output, List.append_assoc]
    simp only
    rw [if_pos serves.block, ← output]
    exact redisGetReply_replied fits serving front

/-! ### All the calls -/

def Redis.commands (redis : Redis) : List Byte :=
  (redis.log.map fun entry => entry.1.command.bytes).flatten

/-- The results so far are the first replies of the stream, and NULL once the socket is lost. -/
structure Ordered (wires : List Wire) (redis : Redis) (replies : List RedisReply) (nulls : Nat) :
    Prop where
  crashed : redis.crashed = none
  results : redis.log.map Prod.snd = replies.map some ++ List.replicate nulls none
  answered : ∀ entry ∈ redis.log.take replies.length, ¬entry.1.Broken
  lost : ∀ entry, redis.log[replies.length]? = some entry → entry.1.Broken
  given : replies <+: wires.map Wire.value
  sent : redis.sent <+: redis.commands
  flushed : ∀ entry ∈ redis.log.getLast?, entry.1.reads ≠ [] → redis.sent = redis.commands
  live : ∀ c, redis.m_context = some c → nulls = 0 ∧ Serves wires c replies ∧
    c.output = redis.commands
  gone : redis.m_context = none → 0 < nulls

theorem Ordered.length_eq {redis : Redis} {replies : List RedisReply} {nulls : Nat}
    (ordered : Ordered wires redis replies nulls) : redis.log.length = replies.length + nulls := by
  have sizes := congrArg List.length ordered.results
  rwa [List.length_map, List.length_append, List.length_map, List.length_replicate] at sizes

theorem connected_ordered : Ordered wires .connected [] 0 where
  crashed := rfl
  results := rfl
  answered := nofun
  lost := nofun
  given := List.nil_prefix
  sent := List.nil_prefix
  flushed := nofun
  live := by
    intro c same
    cases same
    exact ⟨rfl, ⟨rfl, ⟨_, _, .refl _ _, .idle rfl le_rfl rfl rfl rfl rfl⟩, List.nil_prefix⟩, rfl⟩
  gone := nofun

theorem commands_append (log : List (Query × Option RedisReply)) (query : Query)
    (result : Option RedisReply) :
    ((log ++ [(query, result)]).map fun entry => entry.1.command.bytes).flatten =
      (log.map fun entry => entry.1.command.bytes).flatten ++ query.command.bytes := by
  rw [List.map_append, List.flatten_append, List.map_singleton, List.flatten_singleton]

include fits in
theorem Serves.replies_prefix {c : RedisContext} {replies : List RedisReply}
    (serves : Serves wires c replies) : replies <+: wires.map Wire.value := by
  obtain ⟨parse, bytes, steps, -⟩ := serves.follows
  obtain ⟨-, same, -⟩ := steps_take fits steps serves.fed
  rw [same, List.map_take]
  exact List.take_prefix _ _

/-- The context is gone. -/
theorem Ordered.nulled {redis : Redis} {replies : List RedisReply} {nulls : Nat}
    (ordered : Ordered wires redis replies nulls) (context : redis.m_context = none)
    {query : Query} (silent : query.reads = []) :
    Ordered wires ⟨none, none, redis.log ++ [(query, none)], redis.sent⟩ replies (nulls + 1) := by
  have some_null := ordered.gone context
  have inside : replies.length < redis.log.length := by
    rw [ordered.length_eq]
    omega
  refine ⟨rfl, ?_, ?_, ?_, ordered.given, ?_, ?_, nofun, fun _ => Nat.succ_pos _⟩
  · rw [List.map_append, ordered.results, List.append_assoc, List.replicate_succ']
    rfl
  · rw [List.take_append_of_le_length inside.le]
    exact ordered.answered
  · rw [List.getElem?_append_left inside]
    exact ordered.lost
  · rw [Redis.commands, commands_append]
    exact ordered.sent.trans (List.prefix_append _ _)
  · intro entry last reads
    rw [List.getLast?_concat, Option.mem_some_iff] at last
    rw [← last] at reads
    exact absurd silent reads

/-- What the call has used is all that it has been given. -/
theorem Uses.whole {query : Query} {called : Called} {writes : List WriteResult}
    {reads : List ReadResult} (uses : Uses query.writes writes query.reads reads called)
    (used : (called.writes.isEmpty && called.reads.isEmpty) = true) :
    writes = query.writes ∧ reads = query.reads := by
  rw [Bool.and_eq_true, List.isEmpty_iff, List.isEmpty_iff] at used
  obtain ⟨split, splitReads, -⟩ := uses
  rw [used.1, List.append_nil] at split
  rw [used.2, List.append_nil] at splitReads
  exact ⟨split, splitReads⟩

/-- A call that has read has sent everything. -/
theorem Uses.flushes {query : Query} {called : Called} {writes : List WriteResult}
    {reads : List ReadResult} (uses : Uses query.writes writes query.reads reads called)
    (whole : reads = query.reads) {output : List Byte}
    (written : called.context.output = output) (read : query.reads ≠ []) :
    called.context.fd.sent = output := by
  rw [← written, RedisContext.output, uses.flushed (whole ▸ read), List.append_nil]

include fits in
theorem query_ordered {redis next : Redis} {query : Query} {replies : List RedisReply} {nulls : Nat}
    (ordered : Ordered wires redis replies nulls)
    (queried : redis.query wires query = some next) :
    (∃ result, next.log = redis.log ++ [(query, result)]) ∧
      ∃ replies nulls, Ordered wires next replies nulls := by
  unfold Redis.query at queried
  rw [ordered.crashed] at queried
  cases context : redis.m_context with
  | none =>
    rw [context] at queried
    simp only at queried
    split at queried
    · next silent =>
      cases queried
      rw [Bool.and_eq_true, List.isEmpty_iff, List.isEmpty_iff] at silent
      exact ⟨⟨none, rfl⟩, replies, nulls + 1, ordered.nulled context silent.2⟩
    · cases queried
  | some c =>
    obtain ⟨none_null, serves, output⟩ := ordered.live c context
    subst none_null
    have size : redis.log.length = replies.length := ordered.length_eq
    have all : redis.log.take replies.length = redis.log :=
      List.take_of_length_le (Nat.le_of_eq size)
    simp only [context] at queried
    split at queried
    · next front =>
      have replied := redisCommandArgv_replied fits serves front
      rw [output] at replied
      generalize redisCommandArgv c query.command.argv _ query.writes query.reads = outcome
        at queried replied
      cases replied with
      | blocked => cases queried
      | @reply called reply writes reads uses sound answer serving written =>
        simp only [Redis.returned, answer] at queried
        split at queried
        · next used =>
          cases queried
          obtain ⟨rfl, same⟩ := uses.whole used
          refine ⟨⟨some reply, rfl⟩, replies ++ [reply], 0, ordered.crashed, ?_, ?_, ?_,
            serving.replies_prefix fits, ?_, ?_, ?_, nofun⟩
          · rw [List.map_append, ordered.results]
            simp
          · intro entry inside
            rcases List.mem_append.mp (List.mem_of_mem_take inside) with old | new
            · exact ordered.answered entry (all.symm ▸ old)
            · rw [List.mem_singleton.mp new]
              rwa [Query.Broken, ← same]
          · intro entry found
            rw [List.getElem?_eq_none (by simp [size])] at found
            cases found
          · rw [Redis.commands, commands_append]
            exact ⟨called.context.obuf.chars, written⟩
          · intro entry last read
            rw [List.getLast?_concat, Option.mem_some_iff] at last
            subst last
            rw [Redis.commands, commands_append]
            exact uses.flushes same written read
          · intro c' here
            cases here
            refine ⟨rfl, serving, ?_⟩
            rw [Redis.commands, commands_append]
            exact written
        · cases queried
      | @err called writes reads uses broken answer written =>
        simp only [Redis.returned, answer] at queried
        split at queried
        · next used =>
          cases queried
          obtain ⟨rfl, same⟩ := uses.whole used
          refine ⟨⟨none, rfl⟩, replies, 1, ordered.crashed, ?_, ?_, ?_, ordered.given, ?_, ?_,
            nofun, fun _ => Nat.one_pos⟩
          · rw [List.map_append, ordered.results]
            simp
          · rw [List.take_append_of_le_length (Nat.le_of_eq size.symm), all]
            exact fun entry inside => ordered.answered entry (all.symm ▸ inside)
          · intro entry found
            rw [← size, List.getElem?_concat_length] at found
            cases found
            rwa [Query.Broken, ← same]
          · rw [Redis.commands, commands_append]
            exact ⟨called.context.obuf.chars, written⟩
          · intro entry last read
            rw [List.getLast?_concat, Option.mem_some_iff] at last
            subst last
            rw [Redis.commands, commands_append]
            exact uses.flushes same written read
        · cases queried
    · cases queried

include fits in
theorem run_ordered {redis last : Redis} {queries : List Query} {replies : List RedisReply}
    {nulls : Nat} (ordered : Ordered wires redis replies nulls)
    (reached : run (Redis.query wires) redis queries = some last) :
    last.log.map Prod.fst = redis.log.map Prod.fst ++ queries ∧
      ∃ replies nulls, Ordered wires last replies nulls := by
  induction queries generalizing redis replies nulls with
  | nil =>
    cases reached
    exact ⟨(List.append_nil _).symm, replies, nulls, ordered⟩
  | cons query queries ih =>
    obtain ⟨next, queried, later⟩ := run_cons.mp reached
    obtain ⟨⟨result, logged⟩, replies', nulls', ordered'⟩ := query_ordered fits ordered queried
    obtain ⟨log, ends⟩ := ih ordered' later
    refine ⟨?_, ends⟩
    rw [log, logged, List.map_append, List.append_assoc]
    rfl

end Serving

/-- With a server that sends replies of the protocol, whatever its timing, the cuts of the stream
and the short writes, as long as no buffer gets to 2^30 bytes: the calls return the replies in
their order, each one the first that no call before it has returned, up to the first call under
which the socket fails or is closed, and NULL from there on. What has been sent is the commands in
the order of the calls, all of them when the last call has read; and the client does not crash. -/
theorem queries_answered_in_order (wires : List Wire) (queries : List Query) (redis : Redis)
    (fits : ∀ wire ∈ wires, wire.Fits 8)
    (reached : run (Redis.query wires) .connected queries = some redis) :
    redis.crashed = none ∧ redis.log.map Prod.fst = queries ∧
      redis.sent <+: (queries.map fun query => query.command.bytes).flatten ∧
      (∀ query ∈ queries.getLast?, query.reads ≠ [] →
        redis.sent = (queries.map fun query => query.command.bytes).flatten) ∧
      ∃ k nulls, k ≤ wires.length ∧
        redis.log.map Prod.snd =
          (wires.take k).map (fun wire => some wire.value) ++ List.replicate nulls none ∧
        (nulls = 0 ↔ redis.m_context.isSome = true) ∧
        (∀ query ∈ queries.take k, ¬query.Broken) ∧
        ∀ query, queries[k]? = some query → query.Broken := by
  obtain ⟨calls, replies, nulls, ordered⟩ := run_ordered fits connected_ordered reached
  have logged : redis.log.map Prod.fst = queries := calls
  have commands : redis.commands = (queries.map fun query => query.command.bytes).flatten := by
    rw [← logged, List.map_map]
    rfl
  have few := ordered.given.length_le
  rw [List.length_map] at few
  refine ⟨ordered.crashed, logged, commands ▸ ordered.sent, ?_, replies.length, nulls, few, ?_, ?_,
    ?_, ?_⟩
  · intro query last read
    rw [← logged, List.getLast?_map, Option.mem_map] at last
    obtain ⟨entry, inside, rfl⟩ := last
    exact (ordered.flushed entry inside read).trans commands
  · have same := List.prefix_iff_eq_take.mp ordered.given
    rw [ordered.results]
    congr 1
    rw [← List.map_take] at same
    conv_lhs => rw [same]
    rw [List.map_map]
    rfl
  · cases context : redis.m_context with
    | none =>
      have some_null := ordered.gone context
      constructor
      · omega
      · exact nofun
    | some c =>
      have none_null := (ordered.live c context).1
      exact ⟨fun _ => rfl, fun _ => none_null⟩
  · intro query inside
    rw [← logged, ← List.map_take] at inside
    obtain ⟨entry, member, rfl⟩ := List.mem_map.mp inside
    exact ordered.answered entry member
  · intro query found
    rw [← logged, List.getElem?_map, Option.map_eq_some_iff] at found
    obtain ⟨entry, here, rfl⟩ := found
    exact ordered.lost entry here

/-- `del k`. -/
def delK : Argv where
  argv := [[0x64, 0x65, 0x6c], [0x6b, 0]]
  argvlen := some [3, 1]
  inside := .cons (by decide) (.cons (by decide) .nil)
  small := by decide +kernel

/-- It is written in two pieces and answered in two. -/
def delKInPieces : Query :=
  ⟨delK, [.wrote 5, .again, .wrote 100], [.bytes [0x3a, 0x31], .again, .bytes [0x0d, 0x0a]]⟩

/-- The server closes the connection. -/
def delKClosed : Query := ⟨delK, [.wrote 100], [.bytes []]⟩

/-- Without a context nothing is written or read. -/
def delKUnsent : Query := ⟨delK, [], []⟩

theorem queries_answered_in_order_closed :
    ∃ redis, run (Redis.query [.integer 1]) .connected [delKInPieces, delKClosed, delKUnsent] =
        some redis ∧ redis.crashed = none ∧
      redis.log.map Prod.fst = [delKInPieces, delKClosed, delKUnsent] ∧
      redis.sent <+: delK.bytes ++ (delK.bytes ++ (delK.bytes ++ [])) ∧
      (∃ k nulls, k ≤ 1 ∧ redis.log.map Prod.snd =
          (([.integer 1] : List Wire).take k).map (fun wire => some wire.value) ++
            List.replicate nulls none ∧
        (nulls = 0 ↔ redis.m_context.isSome = true) ∧
        (∀ query ∈ [delKInPieces, delKClosed, delKUnsent].take k, ¬query.Broken) ∧
        ∀ query, [delKInPieces, delKClosed, delKUnsent][k]? = some query → query.Broken) ∧
      redis.m_context.isSome = false := by
  have returns : (run (Redis.query [.integer 1]) .connected
      [delKInPieces, delKClosed, delKUnsent]).map (fun redis => redis.m_context.isSome) =
      some false := by
    decide +kernel
  obtain ⟨redis, reached, gone⟩ := Option.map_eq_some_iff.mp returns
  have fits : ∀ wire ∈ ([.integer 1] : List Wire), wire.Fits 8 := by
    simp only [List.forall_mem_singleton, Wire.Fits]
    decide
  obtain ⟨running, logged, sent, -, answered⟩ :=
    queries_answered_in_order _ _ redis fits reached
  exact ⟨redis, reached, running, logged, sent, answered, gone⟩

/-! ### What the server reads -/

def argumentsOf (argv : Argv) : RedisReply :=
  .array (argv.args.map (.string .REDIS_REPLY_STRING))

theorem values_bulk (args : List (List Byte)) :
    values (args.map .bulk) = args.map (.string .REDIS_REPLY_STRING) := by
  induction args with
  | nil => rfl
  | cons arg args ih => rw [List.map_cons, values, ih, Wire.value, List.map_cons]

theorem length_le_encodeAll (args : List (List Byte)) :
    args.length ≤ (encodeAll (args.map .bulk)).length ∧
      ∀ arg ∈ args, arg.length ≤ (encodeAll (args.map .bulk)).length := by
  induction args with
  | nil => exact ⟨le_rfl, nofun⟩
  | cons arg args ih =>
    simp only [List.map_cons, encodeAll, Wire.encode, List.length_cons, List.length_append]
    refine ⟨by omega, fun other inside => ?_⟩
    obtain rfl | inside := List.mem_cons.mp inside
    · omega
    · have more := ih.2 other inside
      omega

theorem allFit_bulk {levels : Nat} {args : List (List Byte)}
    (small : ∀ arg ∈ args, arg.length < 2 ^ 30) : AllFit levels (args.map .bulk) := by
  induction args with
  | nil => trivial
  | cons arg args ih =>
    rw [List.forall_mem_cons] at small
    exact ⟨small.1, ih small.2⟩

theorem command_fits (argv : Argv) : (command argv.args).Fits 8 := by
  have small : (command argv.args).encode.length < 2 ^ 30 := argv.small
  obtain ⟨few, short⟩ := length_le_encodeAll argv.args
  simp only [command, Wire.encode, List.length_cons, List.length_append] at small
  refine ⟨by decide, ?_, allFit_bulk fun arg inside => ?_⟩
  · rw [List.length_map]
    omega
  · have le := short arg inside
    omega

/-- Every command is formatted, into as many bytes as are computed for it; and a reader on the
other side that is fed the commands, in any pieces with which what it buffers stays below 2^30
bytes, gives out their arguments, whatever bytes are in them. -/
theorem commands_read_back (commands : List Argv) :
    ∃ cmds, List.Forall₂ (fun (argv : Argv) cmd =>
        redisFormatCommandArgv argv.argv argv.argvlen = .ok cmd ∧
        totlen argv.argv.length (argLengths argv.argv argv.argvlen) = (cmd.length : Int))
      commands cmds ∧
      ∀ calls session, run request .fresh calls = some session → session.fed = cmds.flatten →
        session.waiting = true →
        session.failure = none ∧ session.replies = commands.map argumentsOf := by
  refine ⟨commands.map Argv.bytes, ?_, fun calls session reached fed waiting => ?_⟩
  · rw [List.forall₂_map_right_iff, List.forall₂_same]
    exact fun argv _ => ⟨argv.formatted, totlen_of_formatted argv.formatted⟩
  · have whole : (commands.map Argv.bytes).flatten =
        stream (commands.map fun argv => command argv.args) := by
      rw [stream, List.map_map]
      rfl
    rw [whole] at fed
    obtain ⟨running, k, inside, replies, -, all⟩ := replies_in_order _ calls session
      (by
        intro wire member
        obtain ⟨argv, -, rfl⟩ := List.mem_map.mp member
        exact command_fits argv)
      reached ⟨[], (List.append_nil _).trans fed⟩
    have every := all waiting _ le_rfl (by rw [List.take_length, fed])
    refine ⟨running, ?_⟩
    rw [replies, Nat.le_antisymm inside every, List.take_length, List.map_map]
    congr 1
    funext argv
    simp only [Function.comp_apply, command, Wire.value, values_bulk, argumentsOf]

/-- `del k` from strings with terminators. -/
def delKStrings : Argv where
  argv := [[0x64, 0x65, 0x6c, 0], [0x6b, 0]]
  argvlen := none
  inside := inside_strlen _
  small := by decide +kernel

theorem commands_read_back_twice :
    ∃ session, run request .fresh [.feed (delK.bytes ++ delKStrings.bytes), .getReply, .getReply,
        .getReply] = some session ∧ session.failure = none ∧
      session.replies = [delK, delKStrings].map argumentsOf := by
  have returns : (run request .fresh [.feed (delK.bytes ++ delKStrings.bytes), .getReply,
      .getReply, .getReply]).map (fun session => (session.fed, session.waiting)) =
      some (delK.bytes ++ delKStrings.bytes, true) := by
    decide +kernel
  obtain ⟨session, reached, fields⟩ := Option.map_eq_some_iff.mp returns
  simp only [Prod.mk.injEq] at fields
  obtain ⟨cmds, formatted, back⟩ := commands_read_back [delK, delKStrings]
  have same : cmds = [delK.bytes, delKStrings.bytes] := by
    obtain _ | ⟨first, _ | ⟨second, _ | _⟩⟩ := formatted
    cases delK.formatted.symm.trans first.1
    cases delKStrings.formatted.symm.trans second.1
    rfl
  have fed : session.fed = cmds.flatten := by
    rw [fields.1, same, List.flatten_cons, List.flatten_cons, List.flatten_nil, List.append_nil]
  exact ⟨session, reached, back _ session reached fed fields.2⟩

end SNFrame.RedisClient.Client
