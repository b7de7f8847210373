import SNFrame.RedisClient.Protocol

/-! Commands, as the client formats them: arrays of bulk strings in the protocol of the replies. -/

namespace SNFrame.RedisClient.Command
open Library.Octet Library.Decimal Reader Protocol

/-- The loop of `intlen` over the digits. -/
def digitCount (n : Nat) : Nat :=
  if n < 10 then 1 else 1 + digitCount (n / 10)

/-- `intlen`. -/
def intlen (i : Int) : Nat :=
  if i < 0 then 1 + digitCount (-i).toNat else digitCount i.toNat

/-- `strlen`; the terminator lies in the memory or right behind it. -/
def strlen (arg : List Byte) : Nat := (arg.takeWhile (· ≠ 0)).length

/-- `argvlen ? argvlen[j] : strlen(argv[j])`. -/
def argLengths (argv : List (List Byte)) : Option (List Nat) → List Nat
  | some argvlen => argvlen
  | none => argv.map strlen

/-- The bytes of one more argument, added up in an `int`. -/
def addLength (totlen : Int) (len : Nat) : Int :=
  toInt32 (totlen + (1 + intlen (toInt32 len) + 2 + len + 2 : Nat))

/-- The number of bytes needed for the command. -/
def totlen (argc : Nat) (lengths : List Nat) : Int :=
  lengths.foldl addLength (1 + intlen argc + 2 : Nat)

/-- `$%zu\r\n`, the argument and `\r\n`. -/
def writeArgument (arg : List Byte) (len : Nat) : List Byte :=
  0x24 :: (decimal len ++ crlf ++ (arg.take len ++ crlf))

/-- `redisFormatCommandArgv`. What does not fit the memory of `totlen + 1` bytes is written past
it before the assertion fails. -/
def redisFormatCommandArgv (argv : List (List Byte)) (argvlen : Option (List Nat)) :
    Except Fault (List Byte) :=
  let lengths := argLengths argv argvlen
  let total := totlen argv.length lengths
  if total + 1 < 0 then .error .outOfMemory
  else
    let cmd := 0x2a :: (decimal argv.length ++ crlf ++
      (List.zipWith writeArgument argv lengths).flatten)
    if (cmd.length : Int) = total then .ok cmd else .error .assertion

/-! ### The command on the wire -/

def command (args : List (List Byte)) : Wire := .array (args.map .bulk)

theorem digitCount_eq (n : Nat) : digitCount n = (decimal n).length := by
  induction n using Nat.strongRecOn with
  | ind n ih =>
    rw [digitCount, decimal, List.length_map]
    by_cases small : n < 10
    · rw [if_pos small, Nat.toDigits_of_lt_base small, List.length_singleton]
    · have fewer := ih (n / 10) (Nat.div_lt_self (by omega) (by decide))
      rw [decimal, List.length_map] at fewer
      rw [if_neg small, fewer, Nat.toDigits_of_base_le (by decide) (Nat.not_lt.mp small),
        List.length_append, List.length_singleton, Nat.add_comm]

theorem intlen_natCast (n : Nat) : intlen n = (decimal n).length := by
  rw [intlen, if_neg (Int.not_lt.mpr (Int.natCast_nonneg n)), Int.toNat_natCast, digitCount_eq]

theorem writeArgument_length {arg : List Byte} {len : Nat} (inside : len ≤ arg.length) :
    (writeArgument arg len).length = 1 + (decimal len).length + 2 + len + 2 := by
  simp only [writeArgument, crlf, List.length_cons, List.length_append, List.length_take,
    List.length_nil, Nat.min_eq_left inside]
  omega

/-- Without an overflow the sum is the one of all the lengths. -/
theorem foldl_totlen {lengths : List Nat} (start : Nat)
    (small : start + (lengths.map fun len => 1 + (decimal len).length + 2 + len + 2).sum < 2 ^ 31) :
    lengths.foldl addLength (start : Int) =
      (start + (lengths.map fun len => 1 + (decimal len).length + 2 + len + 2).sum : Nat) := by
  induction lengths generalizing start with
  | nil => rfl
  | cons len lengths ih =>
    rw [List.map_cons, List.sum_cons] at small ⊢
    have here : addLength start len = (start + (1 + (decimal len).length + 2 + len + 2) : Nat) := by
      rw [addLength, toInt32_of_lt (show len < 2 ^ 31 by omega), intlen_natCast, ← Nat.cast_add,
        toInt32_of_lt (by omega)]
    rw [List.foldl_cons, here, ih _ (by omega), Nat.add_assoc]

theorem flatten_writeArgument_length {argv : List (List Byte)} {lengths : List Nat}
    (inside : List.Forall₂ (fun (arg : List Byte) len => len ≤ arg.length) argv lengths) :
    (List.zipWith writeArgument argv lengths).flatten.length =
      (lengths.map fun len => 1 + (decimal len).length + 2 + len + 2).sum := by
  induction inside with
  | nil => rfl
  | cons first _ ih =>
    rw [List.zipWith_cons_cons, List.flatten_cons, List.length_append, writeArgument_length first,
      ih, List.map_cons, List.sum_cons]

theorem encodeAll_bulk {argv : List (List Byte)} {lengths : List Nat}
    (inside : List.Forall₂ (fun (arg : List Byte) len => len ≤ arg.length) argv lengths) :
    encodeAll ((List.zipWith (fun arg len => arg.take len) argv lengths).map .bulk) =
      (List.zipWith writeArgument argv lengths).flatten := by
  induction inside with
  | nil => rfl
  | @cons arg len argv lengths first _ ih =>
    rw [List.zipWith_cons_cons, List.map_cons, encodeAll, ih, List.zipWith_cons_cons,
      List.flatten_cons, Wire.encode, List.length_take, Nat.min_eq_left first, writeArgument]

/-- The sizes of the arguments and the size of the command agree, and the command is the array of
the arguments. -/
theorem redisFormatCommandArgv_eq {argv : List (List Byte)} {argvlen : Option (List Nat)}
    (inside : List.Forall₂ (fun (arg : List Byte) len => len ≤ arg.length) argv
      (argLengths argv argvlen))
    (small : (command (List.zipWith (fun arg len => arg.take len) argv
      (argLengths argv argvlen))).encode.length < 2 ^ 31) :
    redisFormatCommandArgv argv argvlen =
      .ok (command (List.zipWith (fun arg len => arg.take len) argv
        (argLengths argv argvlen))).encode := by
  have same := inside.length_eq
  simp only [redisFormatCommandArgv, command, Wire.encode, encodeAll_bulk inside, List.length_map,
    List.length_zipWith, ← same, Nat.min_self] at small ⊢
  simp only [crlf, List.length_cons, List.length_append, List.length_nil,
    flatten_writeArgument_length inside] at small
  have total : totlen argv.length (argLengths argv argvlen) =
      (1 + (decimal argv.length).length + 2 + ((argLengths argv argvlen).map fun len =>
        1 + (decimal len).length + 2 + len + 2).sum : Nat) := by
    rw [totlen, foldl_totlen _ (by rw [intlen_natCast]; omega), intlen_natCast]
  rw [total, if_neg (by omega), if_pos]
  simp only [crlf, List.length_cons, List.length_append, List.length_nil,
    flatten_writeArgument_length inside]
  push_cast
  omega

/-- The computed length is the one that is written. -/
theorem totlen_of_formatted {argv : List (List Byte)} {argvlen : Option (List Nat)}
    {cmd : List Byte} (formatted : redisFormatCommandArgv argv argvlen = .ok cmd) :
    totlen argv.length (argLengths argv argvlen) = (cmd.length : Int) := by
  simp only [redisFormatCommandArgv] at formatted
  split at formatted
  · cases formatted
  · split at formatted
    · next whole =>
      cases formatted
      exact whole.symm
    · cases formatted

/-! ### Arguments -/

/-- The arguments of a command, with their lengths or with terminators. They lie in their memory,
and the command is one that a buffer can hold. -/
structure Argv where
  argv : List (List Byte)
  argvlen : Option (List Nat)
  inside : List.Forall₂ (fun (arg : List Byte) len => len ≤ arg.length) argv
    (argLengths argv argvlen)
  small : (command (List.zipWith (fun arg len => arg.take len) argv
    (argLengths argv argvlen))).encode.length < 2 ^ 30

def Argv.args (argv : Argv) : List (List Byte) :=
  List.zipWith (fun arg len => arg.take len) argv.argv (argLengths argv.argv argv.argvlen)

def Argv.bytes (argv : Argv) : List Byte := (command argv.args).encode

theorem Argv.formatted (argv : Argv) :
    redisFormatCommandArgv argv.argv argv.argvlen = .ok argv.bytes :=
  redisFormatCommandArgv_eq argv.inside (argv.small.trans (by decide))

/-- Up to its terminator an argument lies in its memory. -/
theorem inside_strlen (argv : List (List Byte)) :
    List.Forall₂ (fun (arg : List Byte) len => len ≤ arg.length) argv (argLengths argv none) := by
  rw [argLengths, List.forall₂_map_right_iff, List.forall₂_same]
  exact fun arg _ => (List.takeWhile_prefix _).length_le

end SNFrame.RedisClient.Command
