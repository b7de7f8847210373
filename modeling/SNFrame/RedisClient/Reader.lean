import SNFrame.Library.Octet

/-! The reply reader of the Redis client: the bytes that are fed to it, the stack of read tasks
and the reply that is being built. A pointer to an object of the reply is the path to it from
the root; an access through a path that leads nowhere is a fault, as are a failed assertion and
an allocation of a negative size. The functions that build the reply are the default ones. The
buffers are strings whose length and room are counted in an `int`: one that would get too long for
that is not made, so that no position in a buffer gets near the end of that type. -/

namespace SNFrame.RedisClient.Reader
open Library.Octet

def CR : Byte := 0x0d
def LF : Byte := 0x0a

/-- An sds. Up to this length its counters do not wrap: `sdsMakeRoomFor` makes room for twice the
length that is needed. -/
structure Sds where
  chars : List Byte
  fits : chars.length < 2 ^ 30
  deriving DecidableEq, Repr

def sdsempty : Sds := ⟨[], by decide⟩

/-- `sdscatlen`, as long as the counters do not wrap. -/
def sdscatlen (s : Sds) (t : List Byte) : Option Sds :=
  if fits : (s.chars ++ t).length < 2 ^ 30 then some ⟨s.chars ++ t, fits⟩ else none

/-- `sdsrange(s, start, -1)`. -/
def sdsrange (s : Sds) (start : Nat) : Sds :=
  ⟨s.chars.drop start, lt_of_le_of_lt (List.drop_sublist start s.chars).length_le s.fits⟩

@[simp] theorem chars_sdsrange (s : Sds) (start : Nat) :
    (sdsrange s start).chars = s.chars.drop start := rfl

theorem chars_sdscatlen {s cat : Sds} {t : List Byte} (done : sdscatlen s t = some cat) :
    cat.chars = s.chars ++ t := by
  unfold sdscatlen at done
  split at done
  · cases done
    rfl
  · cases done

inductive Fault where
  | assertion
  | outOfMemory
  | elementOutside
  deriving DecidableEq, Repr

inductive ReplyType where
  | REDIS_REPLY_STRING
  | REDIS_REPLY_ARRAY
  | REDIS_REPLY_INTEGER
  | REDIS_REPLY_NIL
  | REDIS_REPLY_STATUS
  | REDIS_REPLY_ERROR
  deriving DecidableEq, Repr

/-- The struct `redisReply`, or NULL. -/
inductive RedisReply where
  | null
  | string (type : ReplyType) (str : List Byte)
  | array (element : List RedisReply)
  | integer (integer : Int)
  | nil
  deriving Repr

/-- The struct `redisReadTask`. `type` is none for -1, and `obj` is the path of the array. The
parent is the task below on the stack. -/
structure ReadTask where
  type : Option ReplyType
  elements : Int
  idx : Int
  obj : List Nat
  deriving DecidableEq, Repr

/-- What `redisSetReplyReaderError` is called with. -/
inductive ReaderError where
  | nested
  | typeByte (byte : Byte)
  deriving DecidableEq, Repr

/-- The struct `redisReader`. `rstack` holds `rstack[ridx]` to `rstack[0]`; `len` is the length of
`buf`. -/
structure RedisReader where
  error : Option ReaderError
  reply : Option RedisReply
  buf : Sds
  pos : Nat
  rstack : List ReadTask
  deriving Repr

/-- `redisReplyReaderCreate`. -/
def RedisReader.create : RedisReader := ⟨none, none, sdsempty, 0, []⟩

/-- `buf[pos..len)`. -/
def RedisReader.unread (r : RedisReader) : List Byte := r.buf.chars.drop r.pos

def toInt32 (n : Int) : Int := n.bmod (2 ^ 32)

def toInt64 (n : Int) : Int := n.bmod (2 ^ 64)

/-! ### Reading from the buffer -/

/-- `while(pos < _len && s[pos] != '\r') pos++`. -/
def skipToCR (s : List Byte) (last : Nat) : Nat → Nat → Nat
  | 0, pos => pos
  | count + 1, pos =>
      if pos < last ∧ s.getD pos 0 ≠ CR then skipToCR s last count (pos + 1) else pos

/-- The outer loop of `seekNewline`. Behind the last byte of the buffer lies its terminator. -/
def seekFrom (s : List Byte) (last : Nat) : Nat → Nat → Option Nat
  | 0, _ => none
  | count + 1, pos =>
      if pos < last then
        let pos := skipToCR s last (last - pos) pos
        if s.getD pos 0 ≠ CR then none
        else if s.getD (pos + 1) 0 = LF then some pos
        else seekFrom s last count (pos + 1)
      else none

def seekNewline (s : List Byte) : Option Nat := seekFrom s (s.length - 1) s.length 0

/-- The loop of `readLongLong`, up to the `\r`; none for a byte that is no digit. -/
def readDigits : Int → List Byte → Option Int
  | _, [] => none
  | v, c :: rest =>
      if c = CR then some v
      else if 0x30 ≤ c ∧ c ≤ 0x39 then
        readDigits (toInt64 (toInt64 (v * 10) + (c.toNat - 0x30 : Nat))) rest
      else none

def readLongLong (s : List Byte) : Int :=
  let (mult, s) := match s with
    | c :: rest => if c = 0x2d then (-1, rest) else if c = 0x2b then (1, rest) else (1, s)
    | [] => (1, s)
  match readDigits 0 s with
  | some v => toInt64 (mult * v)
  | none => -1

/-- `readBytes(r, 1)`. -/
def readByte (r : RedisReader) : Option (Byte × RedisReader) :=
  match r.unread with
  | [] => none
  | byte :: _ => some (byte, { r with pos := r.pos + 1 })

/-- The line from `buf + pos` on and its length. -/
def readLine (r : RedisReader) : Option (List Byte × Nat × RedisReader) :=
  (seekNewline r.unread).map fun len => (r.unread, len, { r with pos := r.pos + (len + 2) })

/-! ### Building the reply -/

/-- The object behind a path is replaced. -/
def setAt : RedisReply → List Nat → RedisReply → Except Fault RedisReply
  | _, [], node => .ok node
  | .array element, i :: path, node =>
      match element[i]? with
      | some slot => (setAt slot path node).map fun slot => .array (element.set i slot)
      | none => .error .elementOutside
  | _, _ :: _, _ => .error .assertion

/-- The path of the slot that the task on top fills. -/
def slotPath : List ReadTask → List Nat
  | cur :: parent :: _ => parent.obj ++ [cur.idx.toNat]
  | _ => []

/-- The end of the functions that create an object: it becomes the root or an element of the
array of the parent. -/
def store (rstack : List ReadTask) (reply : Option RedisReply) (node : RedisReply) :
    Except Fault RedisReply :=
  match rstack with
  | _ :: _ :: _ =>
      match reply with
      | some root => setAt root (slotPath rstack) node
      | none => .error .assertion
  | _ => .ok node

/-- `createArrayObject`: `calloc` refuses a negative number of elements. -/
def createArray (elements : Int) : Except Fault RedisReply :=
  if elements < 0 then .error .outOfMemory
  else .ok (.array (List.replicate elements.toNat .null))

/-- `moveToNextTask`. -/
def moveToNextTask : List ReadTask → Except Fault (List ReadTask)
  | cur :: prv :: rest =>
      if prv.type ≠ some .REDIS_REPLY_ARRAY then .error .assertion
      else if cur.idx = prv.elements - 1 then moveToNextTask (prv :: rest)
      else if cur.idx < prv.elements then
        .ok ({ cur with type := none, elements := -1, idx := cur.idx + 1 } :: prv :: rest)
      else .error .assertion
  | _ => .ok []

/-- An object is stored and the next task begins. -/
def complete (r : RedisReader) (node : RedisReply) : Except Fault RedisReader := do
  let root ← store r.rstack r.reply node
  let rstack ← moveToNextTask r.rstack
  .ok { r with reply := some root, rstack := rstack }

/-! ### The items

The answer says whether an item has been processed; it is false for the result -1. -/

def processLineItem (r : RedisReader) (type : ReplyType) : Except Fault (Bool × RedisReader) :=
  match readLine r with
  | some (p, len, r) => do
      let node : RedisReply :=
        if type = .REDIS_REPLY_INTEGER then .integer (readLongLong p) else .string type (p.take len)
      .ok (true, ← complete r node)
  | none => .ok (false, r)

def processBulkItem (r : RedisReader) : Except Fault (Bool × RedisReader) :=
  let p := r.unread
  match seekNewline p with
  | some s =>
      let bytelen := s + 2
      let len := readLongLong p
      if len < 0 then do
        .ok (true, ← complete { r with pos := r.pos + bytelen } .nil)
      else
        let bytelen := bytelen + (len.toNat + 2)
        if r.pos + bytelen ≤ r.buf.chars.length then do
          let node : RedisReply := .string .REDIS_REPLY_STRING ((p.drop (s + 2)).take len.toNat)
          .ok (true, ← complete { r with pos := r.pos + bytelen } node)
        else .ok (false, r)
  | none => .ok (false, r)

/-- `redisSetReplyReaderError`. The reply has been freed; `redisReplyReaderGetReply` drops the
pointer to it before it returns. -/
def setError (r : RedisReader) (error : ReaderError) : RedisReader :=
  { r with error := some error, reply := none, buf := sdsempty, pos := 0, rstack := [] }

/-- The task of the first element of an array. -/
def firstElement : ReadTask := ⟨none, -1, 0, []⟩

def processMultiBulkItem (r : RedisReader) : Except Fault (Bool × RedisReader) :=
  if r.rstack.length = 9 then .ok (false, setError r .nested)
  else match readLine r with
  | some (p, _, r) =>
      let elements := readLongLong p
      if elements = -1 then do
        .ok (true, ← complete r .nil)
      else do
        let node ← createArray (toInt32 elements)
        if elements > 0 then
          let root ← store r.rstack r.reply node
          let rstack := match r.rstack with
            | cur :: rest =>
                firstElement ::
                  { cur with elements := toInt32 elements, obj := slotPath r.rstack } :: rest
            | [] => []
          .ok (true, { r with reply := some root, rstack := rstack })
        else
          .ok (true, ← complete r node)
  | none => .ok (false, r)

def typeOfByte (byte : Byte) : Option ReplyType :=
  if byte = 0x2d then some .REDIS_REPLY_ERROR
  else if byte = 0x2b then some .REDIS_REPLY_STATUS
  else if byte = 0x3a then some .REDIS_REPLY_INTEGER
  else if byte = 0x24 then some .REDIS_REPLY_STRING
  else if byte = 0x2a then some .REDIS_REPLY_ARRAY
  else none

/-- The switch over the type of the item. -/
def processTyped (r : RedisReader) : ReplyType → Except Fault (Bool × RedisReader)
  | .REDIS_REPLY_ERROR => processLineItem r .REDIS_REPLY_ERROR
  | .REDIS_REPLY_STATUS => processLineItem r .REDIS_REPLY_STATUS
  | .REDIS_REPLY_INTEGER => processLineItem r .REDIS_REPLY_INTEGER
  | .REDIS_REPLY_STRING => processBulkItem r
  | .REDIS_REPLY_ARRAY => processMultiBulkItem r
  | .REDIS_REPLY_NIL => .error .assertion

def processItem (r : RedisReader) : Except Fault (Bool × RedisReader) :=
  match r.rstack with
  | [] => .ok (false, r)
  | cur :: rest =>
      match cur.type with
      | some type => processTyped r type
      | none =>
          match readByte r with
          | none => .ok (false, r)
          | some (byte, r) =>
              match typeOfByte byte with
              | some type =>
                  processTyped { r with rstack := { cur with type := some type } :: rest } type
              | none => .ok (false, setError r (.typeByte byte))

/-! ### The calls -/

/-- `redisReplyReaderFeed`. -/
def feed (r : RedisReader) (buf : List Byte) : Option RedisReader :=
  (sdscatlen r.buf buf).map fun cat => { r with buf := cat }

/-- `while (r->ridx >= 0) if (processItem(r) < 0) break`; none when the count does not suffice. -/
def processItems : Nat → RedisReader → Except Fault (Option RedisReader)
  | count, r =>
      if r.rstack = [] then .ok (some r)
      else match count with
      | 0 => .ok none
      | count + 1 => do
          let (processed, r) ← processItem r
          if processed then processItems count r else .ok (some r)

/-- The task of the reply itself. -/
def rootTask : ReadTask := ⟨none, -1, -1, []⟩

/-- What a call of `redisReplyReaderGetReply` answers: REDIS_OK with the reply or NULL, or
REDIS_ERR. -/
inductive Answer where
  | ok (reply : Option RedisReply)
  | err
  deriving Repr

/-- The consumed part of the buffer is discarded from 1k on. -/
def discard (r : RedisReader) : RedisReader :=
  if r.pos ≥ 1024 then { r with buf := sdsrange r.buf r.pos, pos := 0 } else r

/-- `redisReplyReaderGetReply`. Every item takes a byte off the unread ones. -/
def getReply (r : RedisReader) : Except Fault (Option (Answer × RedisReader)) :=
  if r.buf.chars.length = 0 then .ok (some (.ok none, r))
  else do
    let begun := if r.rstack = [] then { r with rstack := [rootTask] } else r
    match ← processItems (begun.unread.length + 1) begun with
    | none => .ok none
    | some r =>
        let r := discard r
        if r.rstack = [] then
          let answer : Answer := if r.error.isSome then .err else .ok r.reply
          .ok (some (answer, { r with reply := none }))
        else .ok (some (.ok none, r))

end SNFrame.RedisClient.Reader
