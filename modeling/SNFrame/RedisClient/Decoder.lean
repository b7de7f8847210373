import SNFrame.Library.Incremental
import SNFrame.RedisClient.Reader

/-! The reply reader as a decoder of a stream: what it knows besides the unread bytes is the stack
and the reply so far, and a step takes a type byte or an item off the front of the bytes. -/

namespace SNFrame.RedisClient.Decoder
open Library.Octet Library.Incremental Reader

/-! ### Lines -/

/-- The first position at which `\r\n` begins. -/
def firstNewline : List Byte → Option Nat
  | a :: b :: rest =>
      if a = CR ∧ b = LF then some 0 else (firstNewline (b :: rest)).map (· + 1)
  | _ => none

theorem firstNewline_append {bytes : List Byte} {len : Nat} (more : List Byte)
    (found : firstNewline bytes = some len) : firstNewline (bytes ++ more) = some len := by
  induction bytes generalizing len with
  | nil => cases found
  | cons a tail ih =>
    cases tail with
    | nil => cases found
    | cons b rest =>
      simp only [List.cons_append, firstNewline] at found ⊢
      split at found
      · next here => rw [if_pos here, found]
      · next elsewhere =>
        obtain ⟨later, foundLater, rfl⟩ := Option.map_eq_some_iff.mp found
        have again := ih foundLater
        rw [List.cons_append] at again
        rw [if_neg elsewhere, again, Option.map_some]

/-- The line and its `\r\n` lie in the bytes. -/
theorem firstNewline_spec {bytes : List Byte} {len : Nat} (found : firstNewline bytes = some len) :
    ∃ rest, bytes = bytes.take len ++ CR :: LF :: rest ∧ (bytes.take len).length = len := by
  induction bytes generalizing len with
  | nil => cases found
  | cons a tail ih =>
    cases tail with
    | nil => cases found
    | cons b rest =>
      simp only [firstNewline] at found
      split at found
      · next here =>
        cases found
        exact ⟨rest, by rw [here.1, here.2]; rfl, rfl⟩
      · obtain ⟨later, foundLater, rfl⟩ := Option.map_eq_some_iff.mp found
        obtain ⟨after, split, size⟩ := ih foundLater
        refine ⟨after, ?_, ?_⟩
        · rw [List.take_succ_cons, List.cons_append, ← split]
        · rw [List.take_succ_cons, List.length_cons, size]

theorem firstNewline_le {bytes : List Byte} {len : Nat} (found : firstNewline bytes = some len) :
    len + 2 ≤ bytes.length := by
  obtain ⟨rest, split, size⟩ := firstNewline_spec found
  have whole := congrArg List.length split
  simp only [List.length_append, List.length_cons, size] at whole
  omega

/-- A text without a line end is the line before the next one. -/
theorem firstNewline_line {text : List Byte} (single : firstNewline text = none)
    (rest : List Byte) : firstNewline (text ++ CR :: LF :: rest) = some text.length := by
  induction text with
  | nil => rfl
  | cons a tail ih =>
    cases tail with
    | nil =>
      have differs : ¬(a = CR ∧ CR = LF) := fun both => absurd both.2 (by decide)
      simp only [List.cons_append, List.nil_append, firstNewline, if_neg differs]
      rfl
    | cons b more =>
      simp only [List.cons_append, firstNewline] at single ih ⊢
      split at single
      · cases single
      · next elsewhere =>
        rw [if_neg elsewhere, ih (Option.map_eq_none_iff.mp single)]
        rfl

section Seek
variable (s : List Byte)

theorem getD_ne_of_short {pos : Nat} (short : s.length ≤ pos) : s.getD pos 0 ≠ LF := by
  rw [List.getD, List.getElem?_eq_none short]
  decide

theorem firstNewline_short {pos : Nat} (short : s.length ≤ pos + 1) :
    firstNewline (s.drop pos) = none := by
  have few : (s.drop pos).length ≤ 1 := by
    rw [List.length_drop]
    omega
  cases rest : s.drop pos with
  | nil => rfl
  | cons a tail =>
    rw [rest, List.length_cons] at few
    rw [List.length_eq_zero_iff.mp (show tail.length = 0 by omega)]
    rfl

/-- The first newline from a position on, counted from the beginning. -/
def newlineFrom (pos : Nat) : Option Nat := (firstNewline (s.drop pos)).map (· + pos)

theorem newlineFrom_here {pos : Nat} (first : s.getD pos 0 = CR)
    (second : s.getD (pos + 1) 0 = LF) :
    newlineFrom s pos = some pos := by
  have inside : pos + 1 < s.length := by
    by_contra short
    exact getD_ne_of_short s (Nat.not_lt.mp short) second
  rw [newlineFrom, List.drop_eq_getElem_cons (show pos < s.length by omega),
    List.drop_eq_getElem_cons inside, firstNewline, if_pos, Option.map_some, Nat.zero_add]
  simp only [List.getD_eq_getElem?_getD, inside, Nat.lt_of_succ_lt inside, getElem?_pos,
    Option.getD_some] at first second
  exact ⟨first, second⟩

theorem newlineFrom_later {pos : Nat}
    (elsewhere : ¬(s.getD pos 0 = CR ∧ s.getD (pos + 1) 0 = LF)) :
    newlineFrom s pos = newlineFrom s (pos + 1) := by
  by_cases inside : pos + 1 < s.length
  · simp only [List.getD_eq_getElem?_getD, inside, Nat.lt_of_succ_lt inside, getElem?_pos,
      Option.getD_some] at elsewhere
    have next := List.drop_eq_getElem_cons inside
    rw [newlineFrom, newlineFrom, List.drop_eq_getElem_cons (show pos < s.length by omega), next,
      firstNewline, if_neg elsewhere, ← next, Option.map_map]
    congr 1
    funext i
    simp only [Function.comp_apply]
    omega
  · rw [newlineFrom, newlineFrom, firstNewline_short s (by omega), firstNewline_short s (by omega)]
    rfl

theorem skipToCR_spec (last count pos : Nat) (enough : last ≤ pos + count) :
    newlineFrom s (skipToCR s last count pos) = newlineFrom s pos ∧
      pos ≤ skipToCR s last count pos ∧
      (s.getD (skipToCR s last count pos) 0 = CR ∨ last ≤ skipToCR s last count pos) := by
  induction count generalizing pos with
  | zero => exact ⟨rfl, le_rfl, .inr enough⟩
  | succ count ih =>
    rw [skipToCR]
    split
    · next on =>
      obtain ⟨same, later, ends⟩ := ih (pos + 1) (by omega)
      have elsewhere := newlineFrom_later s fun both : s.getD pos 0 = CR ∧ _ => on.2 both.1
      exact ⟨same.trans elsewhere.symm, by omega, ends⟩
    · next off =>
      refine ⟨rfl, le_rfl, ?_⟩
      by_cases here : s.getD pos 0 = CR
      · exact .inl here
      · exact .inr (Nat.not_lt.mp fun before => off ⟨before, here⟩)

theorem seekFrom_spec (last count pos : Nat) (long : s.length ≤ last + 1)
    (enough : last ≤ pos + count) : seekFrom s last count pos = newlineFrom s pos := by
  induction count generalizing pos with
  | zero => rw [seekFrom, newlineFrom, firstNewline_short s (by omega), Option.map_none]
  | succ count ih =>
    rw [seekFrom]
    by_cases before : pos < last
    · rw [if_pos before]
      obtain ⟨same, later, ends⟩ := skipToCR_spec s last (last - pos) pos (by omega)
      rw [← same]
      generalize skipToCR s last (last - pos) pos = here at later ends
      by_cases first : s.getD here 0 = CR
      · simp only [first, ne_eq, not_true_eq_false, if_false]
        by_cases second : s.getD (here + 1) 0 = LF
        · rw [if_pos second, newlineFrom_here s first second]
        · rw [if_neg second, newlineFrom_later s fun both => second both.2]
          exact ih (here + 1) (by omega)
      · have past := ends.resolve_left first
        simp only [ne_eq, first, not_false_eq_true, if_true]
        rw [newlineFrom, firstNewline_short s (by omega), Option.map_none]
    · rw [if_neg before, newlineFrom, firstNewline_short s (by omega), Option.map_none]

theorem seekNewline_eq : seekNewline s = firstNewline s := by
  rw [seekNewline, seekFrom_spec s _ _ _ (by omega) (by omega), newlineFrom, List.drop_zero]
  exact Option.map_id'

end Seek

/-! ### Numbers -/

theorem readDigits_append {bytes : List Byte} (ends : CR ∈ bytes) (v : Int) (more : List Byte) :
    readDigits v (bytes ++ more) = readDigits v bytes := by
  induction bytes generalizing v with
  | nil => cases ends
  | cons c rest ih =>
    simp only [List.cons_append, readDigits]
    by_cases here : c = CR
    · rw [if_pos here, if_pos here]
    · have later := (List.mem_cons.mp ends).resolve_left (Ne.symm here)
      rw [if_neg here, if_neg here]
      split
      · exact ih later _
      · rfl

/-- A number ends with its line. -/
theorem readLongLong_append {bytes : List Byte} (ends : CR ∈ bytes) (more : List Byte) :
    readLongLong (bytes ++ more) = readLongLong bytes := by
  cases bytes with
  | nil => cases ends
  | cons c rest =>
    have later : c ≠ CR → CR ∈ rest :=
      fun differs => (List.mem_cons.mp ends).resolve_left (Ne.symm differs)
    simp only [List.cons_append, readLongLong]
    by_cases minus : c = 0x2d
    · simp only [if_pos minus, readDigits_append (later (by rw [minus]; decide)) 0 more]
    · by_cases plus : c = 0x2b
      · simp only [if_neg minus, if_pos plus,
          readDigits_append (later (by rw [plus]; decide)) 0 more]
      · simp only [if_neg minus, if_neg plus]
        rw [← List.cons_append, readDigits_append ends 0 more]

theorem cr_mem_of_firstNewline {bytes : List Byte} {len : Nat}
    (found : firstNewline bytes = some len) : CR ∈ bytes := by
  obtain ⟨rest, split, -⟩ := firstNewline_spec found
  rw [split]
  exact List.mem_append_right _ List.mem_cons_self

/-! ### The decoder -/

/-- What the reader knows between two items. The stack is never empty: a reply that is complete
makes room for the next one. -/
structure Parse where
  rstack : List ReadTask
  reply : Option RedisReply

def Parse.initial : Parse := ⟨[rootTask], none⟩

inductive Failure where
  | fault (fault : Fault)
  | error (error : ReaderError)

def completeAt (parse : Parse) (node : RedisReply) : Except Fault (RedisReply × List ReadTask) := do
  let root ← store parse.rstack parse.reply node
  let rstack ← moveToNextTask parse.rstack
  .ok (root, rstack)

/-- The end of an item of the given length. -/
def finish (taken : Nat) :
    Except Fault (RedisReply × List ReadTask) → Progress Parse RedisReply Failure
  | .error fault => .failed (.fault fault)
  | .ok (root, []) => .next .initial taken (some root)
  | .ok (root, rstack) => .next ⟨rstack, some root⟩ taken none

def lineStep (parse : Parse) (type : ReplyType) (bytes : List Byte) :
    Progress Parse RedisReply Failure :=
  match firstNewline bytes with
  | some len =>
      finish (len + 2) (completeAt parse
        (if type = .REDIS_REPLY_INTEGER then .integer (readLongLong bytes)
          else .string type (bytes.take len)))
  | none => .starved

def bulkStep (parse : Parse) (bytes : List Byte) : Progress Parse RedisReply Failure :=
  match firstNewline bytes with
  | some s =>
      let len := readLongLong bytes
      if len < 0 then finish (s + 2) (completeAt parse .nil)
      else if s + 2 + (len.toNat + 2) ≤ bytes.length then
        finish (s + 2 + (len.toNat + 2)) (completeAt parse
          (.string .REDIS_REPLY_STRING ((bytes.drop (s + 2)).take len.toNat)))
      else .starved
  | none => .starved

/-- The task on top becomes the array, and its first element the task above. -/
def openArray (parse : Parse) (elements : Int) : List ReadTask :=
  match parse.rstack with
  | cur :: rest =>
      firstElement :: { cur with elements := elements, obj := slotPath parse.rstack } :: rest
  | [] => []

/-- The array is stored and opened. -/
def beginArray (parse : Parse) (elements : Int) (node : RedisReply) : Except Fault Parse := do
  let root ← store parse.rstack parse.reply node
  .ok ⟨openArray parse elements, some root⟩

def arrayStep (parse : Parse) (bytes : List Byte) : Progress Parse RedisReply Failure :=
  match firstNewline bytes with
  | some s =>
      let elements := readLongLong bytes
      if elements = -1 then finish (s + 2) (completeAt parse .nil)
      else match createArray (toInt32 elements) with
      | .error fault => .failed (.fault fault)
      | .ok node =>
          if elements > 0 then
            match beginArray parse (toInt32 elements) node with
            | .error fault => .failed (.fault fault)
            | .ok next => .next next (s + 2) none
          else finish (s + 2) (completeAt parse node)
  | none => .starved

def typedStep (parse : Parse) (bytes : List Byte) : ReplyType → Progress Parse RedisReply Failure
  | .REDIS_REPLY_STRING => bulkStep parse bytes
  | .REDIS_REPLY_ARRAY => arrayStep parse bytes
  | .REDIS_REPLY_NIL => .failed (.fault .assertion)
  | type => lineStep parse type bytes

/-- An array on the ninth level is refused by its type byte. -/
def typeStep (cur : ReadTask) (rest : List ReadTask) (reply : Option RedisReply) :
    List Byte → Progress Parse RedisReply Failure
  | [] => .starved
  | byte :: _ =>
      match typeOfByte byte with
      | none => .failed (.error (.typeByte byte))
      | some type =>
          if type = .REDIS_REPLY_ARRAY ∧ rest.length = 8 then .failed (.error .nested)
          else .next ⟨{ cur with type := some type } :: rest, reply⟩ 1 none

def step (parse : Parse) (bytes : List Byte) : Progress Parse RedisReply Failure :=
  match parse.rstack with
  | [] => .failed (.fault .assertion)
  | cur :: rest =>
      match cur.type with
      | some type => typedStep parse bytes type
      | none => typeStep cur rest parse.reply bytes

/-! ### Stability -/

theorem finish_next {taken count : Nat} {next : Parse} {out : Option RedisReply}
    {completed : Except Fault (RedisReply × List ReadTask)}
    (finished : finish taken completed = .next next count out) : count = taken := by
  unfold finish at finished
  split at finished <;> cases finished <;> rfl

/-- A step that does not wait takes a part of the bytes and is taken on more of them, too. -/
structure Settled (act : List Byte → Progress Parse RedisReply Failure) : Prop where
  same : ∀ {bytes} more, act bytes ≠ .starved → act (bytes ++ more) = act bytes
  taken : ∀ {bytes next count out}, act bytes = .next next count out →
    0 < count ∧ count ≤ bytes.length

theorem lineStep_settled (parse : Parse) (type : ReplyType) : Settled (lineStep parse type) where
  same := by
    intro bytes more moves
    unfold lineStep at moves ⊢
    cases found : firstNewline bytes with
    | none =>
      rw [found] at moves
      exact absurd rfl moves
    | some len =>
      have inside := firstNewline_le found
      simp only [firstNewline_append more found]
      rw [readLongLong_append (cr_mem_of_firstNewline found),
        List.take_append_of_le_length (by omega)]
  taken := by
    intro bytes next count out moved
    unfold lineStep at moved
    split at moved
    · next len found =>
      have inside := firstNewline_le found
      rw [finish_next moved]
      omega
    · cases moved

theorem bulkStep_settled (parse : Parse) : Settled (bulkStep parse) where
  same := by
    intro bytes more moves
    unfold bulkStep at moves ⊢
    cases found : firstNewline bytes with
    | none =>
      rw [found] at moves
      exact absurd rfl moves
    | some len =>
      have inside := firstNewline_le found
      simp only [found, firstNewline_append more found,
        readLongLong_append (cr_mem_of_firstNewline found)] at moves ⊢
      split
      · rfl
      · next counted =>
        rw [if_neg counted] at moves
        by_cases whole : len + 2 + ((readLongLong bytes).toNat + 2) ≤ bytes.length
        · rw [if_pos whole, if_pos (by rw [List.length_append]; omega),
            List.drop_append_of_le_length inside, List.take_append_of_le_length]
          rw [List.length_drop]
          omega
        · rw [if_neg whole] at moves
          exact absurd rfl moves
  taken := by
    intro bytes next count out moved
    unfold bulkStep at moved
    split at moved
    · next len found =>
      have inside := firstNewline_le found
      simp only at moved
      split at moved
      · rw [finish_next moved]
        omega
      · split at moved
        · next whole =>
          rw [finish_next moved]
          omega
        · cases moved
    · cases moved

theorem arrayStep_settled (parse : Parse) : Settled (arrayStep parse) where
  same := by
    intro bytes more moves
    unfold arrayStep at moves ⊢
    cases found : firstNewline bytes with
    | none =>
      rw [found] at moves
      exact absurd rfl moves
    | some len =>
      simp only [firstNewline_append more found,
        readLongLong_append (cr_mem_of_firstNewline found)]
  taken := by
    intro bytes next count out moved
    unfold arrayStep at moved
    split at moved
    · next len found =>
      have inside := firstNewline_le found
      simp only at moved
      split at moved
      · rw [finish_next moved]
        omega
      · split at moved
        · cases moved
        · split at moved
          · split at moved
            · cases moved
            · cases moved
              omega
          · rw [finish_next moved]
            omega
    · cases moved

theorem typeStep_settled (cur : ReadTask) (rest : List ReadTask) (reply : Option RedisReply) :
    Settled (typeStep cur rest reply) where
  same := by
    intro bytes more moves
    cases bytes with
    | nil => exact absurd rfl moves
    | cons byte tail => rfl
  taken := by
    intro bytes next count out moved
    cases bytes with
    | nil => cases moved
    | cons byte tail =>
      simp only [typeStep] at moved
      split at moved
      · cases moved
      · split at moved
        · cases moved
        · cases moved
          simp

theorem step_settled (parse : Parse) : Settled (step parse) := by
  unfold step
  split
  · exact ⟨fun _ _ => rfl, nofun⟩
  · next cur rest stack =>
    split
    · next type typed =>
      cases type with
      | REDIS_REPLY_STRING => exact bulkStep_settled parse
      | REDIS_REPLY_ARRAY => exact arrayStep_settled parse
      | REDIS_REPLY_NIL => exact ⟨fun _ _ => rfl, nofun⟩
      | REDIS_REPLY_INTEGER => exact lineStep_settled parse .REDIS_REPLY_INTEGER
      | REDIS_REPLY_STATUS => exact lineStep_settled parse .REDIS_REPLY_STATUS
      | REDIS_REPLY_ERROR => exact lineStep_settled parse .REDIS_REPLY_ERROR
    · exact typeStep_settled cur rest parse.reply

theorem step_stable : Stable step where
  taken moved := (step_settled _).taken moved
  next more moved := ((step_settled _).same more (moved ▸ nofun)).trans moved
  failed more moved := ((step_settled _).same more (moved ▸ nofun)).trans moved

end SNFrame.RedisClient.Decoder
