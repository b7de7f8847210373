import SNFrame.Library.Decimal
import SNFrame.RedisClient.Builder

/-! The replies as a server writes them, and what the reader makes of a stream of them. -/

namespace SNFrame.RedisClient.Protocol
open Library.Octet Library.Decimal Library.Incremental Library.Transition
open Reader Decoder Feeding Builder

def crlf : List Byte := [CR, LF]

/-- A reply of the protocol. -/
inductive Wire where
  | status (text : List Byte)
  | error (text : List Byte)
  | integer (value : Int)
  | bulk (str : List Byte)
  | nilBulk
  | nilArray
  | array (elements : List Wire)

mutual

def Wire.encode : Wire → List Byte
  | .status text => 0x2b :: (text ++ crlf)
  | .error text => 0x2d :: (text ++ crlf)
  | .integer value => 0x3a :: (signed value ++ crlf)
  | .bulk str => 0x24 :: (decimal str.length ++ crlf ++ (str ++ crlf))
  | .nilBulk => 0x24 :: (signed (-1) ++ crlf)
  | .nilArray => 0x2a :: (signed (-1) ++ crlf)
  | .array elements => 0x2a :: (decimal elements.length ++ crlf ++ encodeAll elements)

def encodeAll : List Wire → List Byte
  | [] => []
  | wire :: wires => wire.encode ++ encodeAll wires

end

mutual

/-- The reply that is meant. -/
def Wire.value : Wire → RedisReply
  | .status text => .string .REDIS_REPLY_STATUS text
  | .error text => .string .REDIS_REPLY_ERROR text
  | .integer value => .integer value
  | .bulk str => .string .REDIS_REPLY_STRING str
  | .nilBulk => .nil
  | .nilArray => .nil
  | .array elements => .array (values elements)

def values : List Wire → List RedisReply
  | [] => []
  | wire :: wires => wire.value :: values wires

end

mutual

/-- The texts are single lines, the strings fit a buffer, the numbers fit their types and the
arrays are not nested more than the given number of levels. -/
def Wire.Fits (levels : Nat) : Wire → Prop
  | .status text => firstNewline text = none
  | .error text => firstNewline text = none
  | .integer value => -(2 ^ 63) < value ∧ value < 2 ^ 63
  | .bulk str => str.length < 2 ^ 30
  | .nilBulk => True
  | .nilArray => 0 < levels
  | .array elements => 0 < levels ∧ elements.length < 2 ^ 31 ∧ AllFit (levels - 1) elements

def AllFit (levels : Nat) : List Wire → Prop
  | [] => True
  | wire :: wires => wire.Fits levels ∧ AllFit levels wires

end

/-! ### Numbers -/

theorem firstNewline_of_no_cr {text : List Byte} (single : CR ∉ text) :
    firstNewline text = none := by
  cases found : firstNewline text with
  | none => rfl
  | some len => exact absurd (cr_mem_of_firstNewline found) single

theorem cr_not_mem_decimal (n : Nat) : CR ∉ decimal n := by
  intro member
  exact absurd (List.all_eq_true.mp (decimal_digits n) CR member) (by decide)

theorem cr_not_mem_signed (i : Int) : CR ∉ signed i := by
  cases i with
  | ofNat n => exact cr_not_mem_decimal n
  | negSucc n =>
    rw [signed, List.mem_cons, not_or]
    exact ⟨by decide, cr_not_mem_decimal (n + 1)⟩

theorem toInt64_of_lt {n : Nat} (small : n < 2 ^ 63) : toInt64 n = n := by
  rw [toInt64]
  exact Int.bmod_eq_of_le (by omega) (by omega)

theorem toInt32_of_lt {n : Nat} (small : n < 2 ^ 31) : toInt32 n = n := by
  rw [toInt32]
  exact Int.bmod_eq_of_le (by omega) (by omega)

theorem le_ofDigitChars (digits : List Char) (v : Nat) : v ≤ Nat.ofDigitChars 10 digits v := by
  induction digits generalizing v with
  | nil => rw [Nat.ofDigitChars_nil]
  | cons digit digits ih =>
    rw [Nat.ofDigitChars_cons]
    have more := ih (10 * v + (digit.toNat - '0'.toNat))
    omega

/-- Digits whose value fits are read as they are. -/
theorem readDigits_digits {digits : List Char}
    (all_digits : ∀ digit ∈ digits, digit.isDigit = true) (v : Nat) (rest : List Byte)
    (small : Nat.ofDigitChars 10 digits v < 2 ^ 63) :
    readDigits v (digits.map digitByte ++ CR :: rest) =
      some ((Nat.ofDigitChars 10 digits v : Nat) : Int) := by
  induction digits generalizing v with
  | nil =>
    rw [List.map_nil, List.nil_append, readDigits, if_pos rfl, Nat.ofDigitChars_nil]
  | cons digit digits ih =>
    rw [List.forall_mem_cons] at all_digits
    obtain ⟨value, is_digit⟩ := digitByte_toNat all_digits.1
    have bounds : 48 ≤ digit.toNat ∧ digit.toNat ≤ 57 := Char.isDigit_iff_toNat.mp all_digits.1
    rw [Nat.ofDigitChars_cons] at small ⊢
    have below := (le_ofDigitChars digits _).trans_lt small
    have no_cr : digitByte digit ≠ CR := by
      intro same
      rw [same] at is_digit
      exact absurd is_digit (by decide)
    rw [isDigit, Bool.and_eq_true, decide_eq_true_eq, decide_eq_true_eq] at is_digit
    rw [List.map_cons, List.cons_append, readDigits, if_neg no_cr, if_pos is_digit]
    have next : toInt64 (toInt64 ((v : Int) * 10) + ((digitByte digit).toNat - 0x30 : Nat)) =
        (10 * v + (digit.toNat - '0'.toNat) : Nat) := by
      have zero : '0'.toNat = 48 := rfl
      rw [zero] at below ⊢
      rw [value, show (v : Int) * 10 = (10 * v : Nat) by push_cast; omega,
        toInt64_of_lt (by omega), ← Nat.cast_add, toInt64_of_lt below]
    rw [next]
    exact ih all_digits.2 _ small

theorem readDigits_decimal {n : Nat} (small : n < 2 ^ 63) (rest : List Byte) :
    readDigits 0 (decimal n ++ CR :: rest) = some (n : Int) := by
  have digits : ∀ digit ∈ Nat.toDigits 10 n, digit.isDigit = true :=
    fun digit member => Nat.isDigit_of_mem_toDigits (by decide) (by decide) member
  have value : Nat.ofDigitChars 10 (Nat.toDigits 10 n) 0 = n := Nat.ofDigitChars_ten_toDigits
  have read := readDigits_digits digits 0 rest (by rw [value]; exact small)
  rw [value] at read
  exact read

theorem readLongLong_decimal {n : Nat} (small : n < 2 ^ 63) (rest : List Byte) :
    readLongLong (decimal n ++ CR :: rest) = n := by
  have read := readDigits_decimal small rest
  cases digits : decimal n with
  | nil => exact absurd digits (decimal_ne_nil n)
  | cons first more =>
    have is_digit : isDigit first = true :=
      List.all_eq_true.mp (decimal_digits n) first (digits ▸ List.mem_cons_self)
    have no_minus : first ≠ 0x2d := by
      rintro rfl
      exact absurd is_digit (by decide)
    have no_plus : first ≠ 0x2b := by
      rintro rfl
      exact absurd is_digit (by decide)
    rw [digits] at read
    simp only [List.cons_append, readLongLong, if_neg no_minus, if_neg no_plus] at read ⊢
    rw [read]
    simp only [one_mul]
    exact toInt64_of_lt small

theorem readLongLong_signed {i : Int} (above : -(2 ^ 63) < i) (below : i < 2 ^ 63)
    (rest : List Byte) : readLongLong (signed i ++ CR :: rest) = i := by
  cases i with
  | ofNat n => exact readLongLong_decimal (Int.ofNat_lt.mp below) rest
  | negSucc n =>
    have read := readDigits_decimal (n := n + 1) (by omega) rest
    simp only [signed, List.cons_append, readLongLong, MINUS, if_true, read]
    rw [toInt64, Int.bmod_eq_of_le (by push_cast; omega) (by push_cast; omega)]
    omega

/-! ### One reply -/

/-- What a part of the stream does to the arrays that are open. -/
inductive Leads (parse : Parse) (bytes rest : List Byte) : List Frame ⊕ RedisReply → Prop where
  | complete {reply : RedisReply} (steps : Steps step parse bytes [reply] .initial rest) :
      Leads parse bytes rest (.inr reply)
  | next {later : List Frame} {next : Parse} (steps : Steps step parse bytes [] next rest)
      (builds : Builds later none next) : Leads parse bytes rest (.inl later)

theorem Leads.after {parse next : Parse} {bytes between rest : List Byte}
    {result : List Frame ⊕ RedisReply} (steps : Steps step parse bytes [] next between)
    (leads : Leads next between rest result) : Leads parse bytes rest result := by
  cases leads with
  | complete more => exact .complete (steps.trans more)
  | next more builds => exact .next (steps.trans more) builds

/-- The type byte of an item. -/
theorem typeStep_builds {frames : List Frame} {parse : Parse} {byte : Byte} {type : ReplyType}
    (builds : Builds frames none parse) (known : typeOfByte byte = some type)
    (level : type = .REDIS_REPLY_ARRAY → frames.length ≠ 8) (tail : List Byte) :
    ∃ next, Steps step parse (byte :: tail) [] next tail ∧ Builds frames (some type) next := by
  obtain ⟨cur, tasks, stack, typed, idx, parents⟩ := builds.top
  have shallow : ¬(type = .REDIS_REPLY_ARRAY ∧ tasks.length = 8) := by
    rw [parents.length_eq]
    exact fun deep => level deep.1 deep.2
  have stepped : step parse (byte :: tail) =
      .next ⟨{ cur with type := some type } :: tasks, parse.reply⟩ 1 none := by
    simp only [step, stack, typed, typeStep, known, if_neg shallow]
  exact ⟨_, .single stepped, ⟨_, tasks, rfl, rfl, idx, parents⟩, builds.reply⟩

theorem step_of_builds {frames : List Frame} {parse : Parse} {type : ReplyType}
    (builds : Builds frames (some type) parse) (bytes : List Byte) :
    step parse bytes = typedStep parse bytes type := by
  obtain ⟨cur, tasks, stack, typed, -⟩ := builds.top
  simp only [step, stack, typed]

/-- An item that is completed by one step. -/
theorem leads_of_finish {frames : List Frame} {type : ReplyType} {parse : Parse}
    {bytes rest : List Byte} (builds : Builds frames (some type) parse) (node : RedisReply)
    (taken : Nat) (stepped : typedStep parse bytes type = finish taken (completeAt parse node))
    (behind : bytes.drop taken = rest) : Leads parse bytes rest (fill frames node) := by
  have fills := finish_fills builds node taken
  rw [← step_of_builds builds] at stepped
  rw [← stepped] at fills
  generalize moved : step parse bytes = progress at fills
  generalize fill frames node = result at fills
  cases fills with
  | complete reply => exact .complete (behind ▸ .single moved)
  | next later => exact .next (behind ▸ .single moved) later

theorem drop_line (text rest : List Byte) :
    (text ++ CR :: LF :: rest).drop (text.length + 2) = rest := by
  rw [← List.drop_drop, List.drop_left]
  rfl

section Item
variable {frames : List Frame} {parse : Parse} (rest : List Byte)

/-- A status or an error. -/
theorem text_leads {type : ReplyType} (builds : Builds frames (some type) parse)
    (text_type : type = .REDIS_REPLY_STATUS ∨ type = .REDIS_REPLY_ERROR) {text : List Byte}
    (single : firstNewline text = none) :
    Leads parse (text ++ CR :: LF :: rest) rest (fill frames (.string type text)) := by
  refine leads_of_finish builds _ (text.length + 2) ?_ (drop_line text rest)
  have not_integer : type ≠ .REDIS_REPLY_INTEGER := by
    rintro rfl
    cases text_type with
    | inl same => cases same
    | inr same => cases same
  have lined : typedStep parse (text ++ CR :: LF :: rest) type =
      lineStep parse type (text ++ CR :: LF :: rest) := by
    cases text_type with
    | inl same => rw [same]; rfl
    | inr same => rw [same]; rfl
  rw [lined, lineStep, firstNewline_line single rest]
  simp only [if_neg not_integer, List.take_left]

theorem integer_leads (builds : Builds frames (some .REDIS_REPLY_INTEGER) parse) {i : Int}
    (above : -(2 ^ 63) < i) (below : i < 2 ^ 63) :
    Leads parse (signed i ++ CR :: LF :: rest) rest (fill frames (.integer i)) := by
  refine leads_of_finish builds _ ((signed i).length + 2) ?_ (drop_line _ rest)
  rw [typedStep, lineStep, firstNewline_line (firstNewline_of_no_cr (cr_not_mem_signed i)) rest,
    readLongLong_signed above below]
  · rfl
  all_goals decide

theorem bulk_leads (builds : Builds frames (some .REDIS_REPLY_STRING) parse) {str : List Byte}
    (small : str.length < 2 ^ 63) :
    Leads parse (decimal str.length ++ CR :: LF :: (str ++ CR :: LF :: rest)) rest
      (fill frames (.string .REDIS_REPLY_STRING str)) := by
  have line := firstNewline_line (firstNewline_of_no_cr (cr_not_mem_decimal str.length))
    (str ++ CR :: LF :: rest)
  have behind := drop_line (decimal str.length) (str ++ CR :: LF :: rest)
  refine leads_of_finish builds _ ((decimal str.length).length + 2 + (str.length + 2)) ?_ ?_
  · rw [typedStep, bulkStep, line, readLongLong_decimal small]
    simp only [Int.toNat_natCast]
    rw [if_neg (by omega), if_pos (by simp only [List.length_append, List.length_cons]; omega),
      behind, List.take_left]
  · rw [← List.drop_drop, behind, drop_line]

theorem nilBulk_leads (builds : Builds frames (some .REDIS_REPLY_STRING) parse) :
    Leads parse (signed (-1) ++ CR :: LF :: rest) rest (fill frames .nil) := by
  refine leads_of_finish builds _ ((signed (-1)).length + 2) ?_ (drop_line _ rest)
  rw [typedStep, bulkStep, firstNewline_line (firstNewline_of_no_cr (cr_not_mem_signed (-1))) rest,
    readLongLong_signed (by decide) (by decide)]
  rfl

theorem nilArray_leads (builds : Builds frames (some .REDIS_REPLY_ARRAY) parse) :
    Leads parse (signed (-1) ++ CR :: LF :: rest) rest (fill frames .nil) := by
  refine leads_of_finish builds _ ((signed (-1)).length + 2) ?_ (drop_line _ rest)
  rw [typedStep, arrayStep,
    firstNewline_line (firstNewline_of_no_cr (cr_not_mem_signed (-1))) rest,
    readLongLong_signed (by decide) (by decide)]
  rfl

theorem emptyArray_leads (builds : Builds frames (some .REDIS_REPLY_ARRAY) parse) :
    Leads parse (decimal 0 ++ CR :: LF :: rest) rest (fill frames (.array [])) := by
  refine leads_of_finish builds _ ((decimal 0).length + 2) ?_ (drop_line _ rest)
  rw [typedStep, arrayStep,
    firstNewline_line (firstNewline_of_no_cr (cr_not_mem_decimal 0)) rest,
    readLongLong_decimal (by decide)]
  rfl

theorem createArray_count (count : Nat) :
    createArray count = .ok (.array (List.replicate count .null)) := by
  rw [createArray, if_neg (Int.not_lt.mpr (Int.natCast_nonneg count)), Int.toNat_natCast]

/-- The header of an array opens it. -/
theorem header_steps (builds : Builds frames (some .REDIS_REPLY_ARRAY) parse) {count : Nat}
    (positive : 0 < count) (small : count < 2 ^ 31) :
    ∃ next, Steps step parse (decimal count ++ CR :: LF :: rest) [] next rest ∧
      Builds (Frame.opened count :: frames) none next := by
  obtain ⟨next, begun, later⟩ := beginArray_builds builds positive
  have fits : count < 2 ^ 63 := small.trans (by decide)
  have counted : ¬(count : Int) = -1 := by omega
  have some_element : (count : Int) > 0 := Int.natCast_pos.mpr positive
  have stepped : step parse (decimal count ++ CR :: LF :: rest) =
      .next next ((decimal count).length + 2) none := by
    rw [step_of_builds builds, typedStep, arrayStep,
      firstNewline_line (firstNewline_of_no_cr (cr_not_mem_decimal count)) rest,
      readLongLong_decimal fits]
    simp only [toInt32_of_lt small, createArray_count, if_neg counted, if_pos some_element, begun]
  have steps := Steps.single stepped
  rw [drop_line] at steps
  exact ⟨next, steps, later⟩

end Item

theorem value_after_type {frames : List Frame} {parse : Parse} {byte : Byte}
    (builds : Builds frames none parse) (type : ReplyType) (known : typeOfByte byte = some type)
    (level : type = .REDIS_REPLY_ARRAY → frames.length ≠ 8) {tail rest : List Byte}
    {result : List Frame ⊕ RedisReply}
    (leads : ∀ next, Builds frames (some type) next → Leads next tail rest result) :
    Leads parse (byte :: tail) rest result := by
  obtain ⟨next, steps, typed⟩ := typeStep_builds builds known level tail
  exact (leads next typed).after steps

mutual

/-- A reply fills the slot in hand with its value. -/
theorem encode_leads {frames : List Frame} {parse : Parse} (builds : Builds frames none parse)
    (rest : List Byte) : (wire : Wire) → wire.Fits (8 - frames.length) →
    Leads parse (wire.encode ++ rest) rest (fill frames wire.value)
  | .status text, fits => by
      simp only [Wire.encode, crlf, List.cons_append, List.append_assoc, List.nil_append]
      exact value_after_type builds .REDIS_REPLY_STATUS rfl nofun
        fun _ typed => text_leads rest typed (.inl rfl) fits
  | .error text, fits => by
      simp only [Wire.encode, crlf, List.cons_append, List.append_assoc, List.nil_append]
      exact value_after_type builds .REDIS_REPLY_ERROR rfl nofun
        fun _ typed => text_leads rest typed (.inr rfl) fits
  | .integer value, fits => by
      simp only [Wire.encode, crlf, List.cons_append, List.append_assoc, List.nil_append]
      exact value_after_type builds .REDIS_REPLY_INTEGER rfl nofun
        fun _ typed => integer_leads rest typed fits.1 fits.2
  | .bulk str, fits => by
      simp only [Wire.encode, crlf, List.cons_append, List.append_assoc, List.nil_append]
      exact value_after_type builds .REDIS_REPLY_STRING rfl nofun
        fun _ typed => bulk_leads rest typed (fits.trans (by decide))
  | .nilBulk, _ => by
      simp only [Wire.encode, crlf, List.cons_append, List.append_assoc, List.nil_append]
      exact value_after_type builds .REDIS_REPLY_STRING rfl nofun
        fun _ typed => nilBulk_leads rest typed
  | .nilArray, fits => by
      simp only [Wire.encode, crlf, List.cons_append, List.append_assoc, List.nil_append]
      simp only [Wire.Fits] at fits
      exact value_after_type builds .REDIS_REPLY_ARRAY rfl (fun _ => by omega)
        fun _ typed => nilArray_leads rest typed
  | .array [], fits => by
      simp only [Wire.encode, encodeAll, crlf, List.cons_append, List.append_assoc,
        List.nil_append]
      simp only [Wire.Fits] at fits
      exact value_after_type builds .REDIS_REPLY_ARRAY rfl (fun _ => by omega) fun _ typed =>
        emptyArray_leads rest typed
  | .array (first :: others), fits => by
      simp only [Wire.encode, crlf, List.cons_append, List.append_assoc, List.nil_append]
      simp only [Wire.Fits] at fits
      obtain ⟨level, small, allFit⟩ := fits
      refine value_after_type builds .REDIS_REPLY_ARRAY rfl (fun _ => by omega) fun _ typed => ?_
      obtain ⟨next, steps, opened⟩ := header_steps (encodeAll (first :: others) ++ rest) typed
        (Nat.succ_pos others.length) small
      refine (encodeAll_leads opened rest (first :: others) ?_ ?_ rfl).after steps
      · exact List.cons_ne_nil _ _
      · rw [List.length_cons, Nat.sub_add_eq]
        exact allFit

/-- The elements fill the slots of their array. -/
theorem encodeAll_leads {frame : Frame} {frames : List Frame} {parse : Parse}
    (builds : Builds (frame :: frames) none parse) (rest : List Byte) : (wires : List Wire) →
    wires ≠ [] → AllFit (8 - (frame :: frames).length) wires → frame.left = wires.length - 1 →
    Leads parse (encodeAll wires ++ rest) rest
      (fill frames (.array (frame.filled ++ values wires)))
  | [], some_wire, _, _ => absurd rfl some_wire
  | wire :: wires, _, fit, left => by
      have leads := encode_leads builds (encodeAll wires ++ rest) wire fit.1
      rw [List.length_cons, Nat.add_sub_cancel] at left
      rw [encodeAll, List.append_assoc]
      by_cases last : wires = []
      · have none_left : frame.left = 0 := left.trans (last ▸ rfl)
        rw [fill, if_pos none_left, Frame.close, none_left] at leads
        rw [last] at leads ⊢
        exact leads
      · have some_left : frame.left ≠ 0 := by
          rw [left]
          exact mt List.length_eq_zero_iff.mp last
        rw [fill, if_neg some_left] at leads
        cases leads with
        | next steps later =>
          have more := encodeAll_leads later rest wires last fit.2 (by rw [left])
          simp only [List.append_assoc, List.singleton_append] at more
          exact more.after steps

end

/-- A whole reply is put out, and the decoder is where it was. -/
theorem encode_steps {wire : Wire} (fits : wire.Fits 8) (rest : List Byte) :
    Steps step .initial (wire.encode ++ rest) [wire.value] .initial rest := by
  have leads := encode_leads initial_builds rest wire fits
  rw [fill] at leads
  cases leads with
  | complete steps => exact steps

/-! ### A stream of replies -/

def stream (wires : List Wire) : List Byte := (wires.map Wire.encode).flatten

theorem stream_append (wires more : List Wire) :
    stream (wires ++ more) = stream wires ++ stream more := by
  rw [stream, List.map_append, List.flatten_append]
  rfl

theorem stream_steps {wires : List Wire} (fits : ∀ wire ∈ wires, wire.Fits 8) (rest : List Byte) :
    Steps step .initial (stream wires ++ rest) (wires.map Wire.value) .initial rest := by
  induction wires with
  | nil => exact .refl _ _
  | cons wire wires ih =>
    have first := encode_steps (fits wire List.mem_cons_self) (stream wires ++ rest)
    have later := ih fun other inside => fits other (List.mem_cons_of_mem _ inside)
    have whole := first.trans later
    rw [← List.append_assoc] at whole
    exact whole

theorem finish_silent_ne_initial {parse next : Parse} {node : RedisReply} {taken count : Nat}
    (finished : finish taken (completeAt parse node) = .next next count none) :
    next ≠ .initial := by
  unfold finish at finished
  split at finished
  · cases finished
  · cases finished
  · cases finished
    intro same
    cases congrArg Parse.reply same

/-- A step that puts nothing out leads into the middle of a reply. -/
theorem silent_ne_initial {parse next : Parse} {bytes : List Byte} {count : Nat}
    (stepped : step parse bytes = .next next count none) : next ≠ .initial := by
  have line : ∀ kind, lineStep parse kind bytes = .next next count none → next ≠ .initial := by
    intro kind lined
    unfold lineStep at lined
    split at lined
    · exact finish_silent_ne_initial lined
    · cases lined
  unfold step at stepped
  split at stepped
  · cases stepped
  · next cur rest stack =>
    split at stepped
    · next type typed =>
      cases type with
      | REDIS_REPLY_STRING =>
        simp only [typedStep, bulkStep] at stepped
        split at stepped
        · split at stepped
          · exact finish_silent_ne_initial stepped
          · split at stepped
            · exact finish_silent_ne_initial stepped
            · cases stepped
        · cases stepped
      | REDIS_REPLY_ARRAY =>
        simp only [typedStep, arrayStep] at stepped
        split at stepped
        · split at stepped
          · exact finish_silent_ne_initial stepped
          · split at stepped
            · cases stepped
            · split at stepped
              · split at stepped
                · cases stepped
                · next begun =>
                  cases stepped
                  unfold beginArray at begun
                  cases stored : store parse.rstack parse.reply _ with
                  | error fault =>
                    rw [stored] at begun
                    cases begun
                  | ok root =>
                    rw [stored] at begun
                    cases begun
                    intro same
                    cases congrArg Parse.reply same
              · exact finish_silent_ne_initial stepped
        · cases stepped
      | REDIS_REPLY_NIL => cases stepped
      | REDIS_REPLY_INTEGER => exact line _ stepped
      | REDIS_REPLY_STATUS => exact line _ stepped
      | REDIS_REPLY_ERROR => exact line _ stepped
    · cases bytes with
      | nil => cases stepped
      | cons byte tail =>
        simp only [typeStep] at stepped
        split at stepped
        · cases stepped
        · split at stepped
          · cases stepped
          · cases stepped
            intro same
            have top := congrArg Parse.rstack same
            cases congrArg (fun tasks => (tasks.head?).bind ReadTask.type) top

/-- Without a reply the decoder does not come back to where a reply begins. -/
theorem silent_steps_to_initial {parse : Parse} {bytes rest : List Byte}
    (steps : Steps step parse bytes [] .initial rest) : parse = .initial ∧ rest = bytes := by
  generalize silent : ([] : List RedisReply) = outs at steps
  generalize ends : Parse.initial = last at steps
  induction steps with
  | refl => exact ⟨ends.symm ▸ rfl, rfl⟩
  | @head state next last bytes rest count out outs stepped later ih =>
    obtain ⟨none_out, none_later⟩ := List.nil_eq_append_iff.mp silent
    have nothing : out = none := by
      cases out with
      | none => rfl
      | some reply => cases none_out
    subst nothing
    exact absurd ((ih none_later.symm ends).1.trans ends.symm ▸ rfl) (silent_ne_initial stepped)

/-- No reply comes before its last byte: what is read behind the replies given out is at most
what lies behind them in the stream. -/
theorem length_le_of_replies {parse : Parse} {bytes rest all : List Byte}
    {replies : List RedisReply} (steps : Steps step .initial all replies parse bytes)
    (alone : Steps step .initial all replies .initial rest) : bytes.length ≤ rest.length := by
  cases steps.compare alone with
  | inl here =>
    obtain ⟨more, silent, same⟩ := here
    cases List.append_cancel_left ((List.append_nil _).trans same)
    rw [(silent_steps_to_initial silent).2]
  | inr there =>
    obtain ⟨more, silent, -⟩ := there
    exact silent.suffix.length_le

section Stream
variable {wires : List Wire} (fits : ∀ wire ∈ wires, wire.Fits 8)
include fits

theorem take_steps (k : Nat) (rest : List Byte) :
    Steps step .initial (stream (wires.take k) ++ rest) ((wires.take k).map Wire.value) .initial
      rest :=
  stream_steps (fun wire inside => fits wire (List.mem_of_mem_take inside)) rest

theorem stream_decodes :
    Decodes step .initial (stream wires) (wires.map Wire.value)
      (.waiting .initial [] : Stand Parse Byte Failure) := by
  have waits : Decodes step .initial [] [] (.waiting .initial [] : Stand Parse Byte Failure) :=
    .starved rfl
  have whole := (stream_steps fits []).decodes waits
  rwa [List.append_nil, List.append_nil] at whole

/-- Some steps on a part of the stream put out its first replies. -/
theorem steps_take {parse : Parse} {bytes fed : List Byte} {replies : List RedisReply}
    (steps : Steps step .initial fed replies parse bytes) (front : fed <+: stream wires) :
    replies.length ≤ wires.length ∧ replies = (wires.take replies.length).map Wire.value ∧
      stream (wires.take replies.length) <+: fed := by
  obtain ⟨later, total⟩ := front
  have extended := steps.append step_stable later
  rw [total] at extended
  have first := extended.prefix_decodes step_stable (stream_decodes fits)
  have few := first.length_le
  rw [List.length_map] at few
  have same : replies = (wires.take replies.length).map Wire.value := by
    rw [List.map_take]
    exact List.prefix_iff_eq_take.mp first
  have split : stream (wires.take replies.length) ++ stream (wires.drop replies.length) =
      stream wires := by
    rw [← stream_append, List.take_append_drop]
  have taken := take_steps fits replies.length (stream (wires.drop replies.length))
  rw [split, ← same] at taken
  have behind := length_le_of_replies extended taken
  refine ⟨few, same, List.prefix_of_prefix_length_le ⟨_, split⟩ ⟨later, total⟩ ?_⟩
  have sizes := congrArg List.length (split.trans total.symm)
  simp only [List.length_append] at sizes behind
  omega

/-- A part of the stream is not refused. -/
theorem stream_not_failed {parse : Parse} {bytes fed : List Byte} {replies : List RedisReply}
    (steps : Steps step .initial fed replies parse bytes) (front : fed <+: stream wires)
    (failure : Failure) : step parse bytes ≠ .failed failure := by
  intro fails
  obtain ⟨later, total⟩ := front
  have decoded := (steps.append step_stable later).decodes
    (.failed (step_stable.failed later fails))
  rw [total] at decoded
  cases (decoded.deterministic (stream_decodes fits)).2

end Stream

/-- A stream of replies, cut anywhere and asked for at any time, as long as what is buffered stays
below 2^30 bytes: what comes out are the first replies of the stream, in order and each once; none
before its last byte, and, when a call finds nothing, all those that have arrived. -/
theorem replies_in_order (wires : List Wire) (calls : List Call) (session : Session)
    (fits : ∀ wire ∈ wires, wire.Fits 8)
    (reached : run request .fresh calls = some session)
    (fed : session.fed <+: stream wires) :
    session.failure = none ∧ ∃ k, k ≤ wires.length ∧
      session.replies = (wires.take k).map Wire.value ∧
      stream (wires.take k) <+: session.fed ∧
      (session.waiting = true → ∀ j, j ≤ wires.length →
        stream (wires.take j) <+: session.fed → j ≤ k) := by
  obtain ⟨parse, bytes, follows⟩ := run_follows reached
  obtain ⟨few, replies, taken⟩ := steps_take fits follows.steps fed
  refine ⟨?_, session.replies.length, few, replies, taken, fun asked j inside arrived => ?_⟩
  · cases failed : session.failure with
    | none => rfl
    | some failure =>
      exact absurd (follows.fails failure failed) (stream_not_failed fits follows.steps fed failure)
  · obtain ⟨part, total⟩ := arrived
    have steps := take_steps fits j part
    rw [total] at steps
    have some_replies := (steps.prefix_decodes step_stable (follows.decodes (.inl asked))).length_le
    rw [List.length_map, List.length_take, Nat.min_eq_left inside] at some_replies
    exact some_replies

/-- `+OK` and an array of a number and a string. -/
def okAndArray : List Wire := [.status [0x4f, 0x4b], .array [.integer (-5), .bulk [0x61]]]

theorem replies_in_order_array :
    ∃ session, run request .fresh [.feed ((stream okAndArray).take 11), .getReply, .getReply] =
        some session ∧ session.waiting = true ∧ session.failure = none ∧ ∃ k, k ≤ 2 ∧
      session.replies = (okAndArray.take k).map Wire.value ∧
      stream (okAndArray.take k) <+: session.fed ∧
      (session.waiting = true →
        ∀ j, j ≤ 2 → stream (okAndArray.take j) <+: session.fed → j ≤ k) := by
  have returns : (run request .fresh [.feed ((stream okAndArray).take 11), .getReply,
      .getReply]).map (fun session => (session.fed, session.waiting)) =
      some ((stream okAndArray).take 11, true) := by
    decide +kernel
  obtain ⟨session, reached, fields⟩ := Option.map_eq_some_iff.mp returns
  simp only [Prod.mk.injEq] at fields
  have fits : ∀ wire ∈ okAndArray, wire.Fits 8 := by
    simp only [okAndArray, List.forall_mem_cons, List.not_mem_nil, false_implies, implies_true,
      and_true, Wire.Fits, AllFit, List.length_cons, List.length_nil]
    decide
  have front : session.fed <+: stream okAndArray := by
    rw [fields.1]
    exact List.take_prefix _ _
  obtain ⟨running, rest⟩ := replies_in_order okAndArray _ session fits reached front
  exact ⟨session, reached, fields.2, running, rest⟩

end SNFrame.RedisClient.Protocol
