import SNFrame.Base.ConfigFileReader

/-! The line grammar of the configuration, and the files that `_LoadFile` reads by it: those whose
lines fit into the buffer of `fgets`. A longer line is read as several lines. -/

namespace SNFrame.Base.ConfigGrammar
open Library.Octet ConfigFileReader

/-! ### The grammar -/

/-- The lines of a file; the last one may lack its newline. -/
def lines : List Byte → List (List Byte)
  | [] => []
  | byte :: file =>
      if byte = LF then [] :: lines file
      else match lines file with
        | [] => [[byte]]
        | line :: rest => (byte :: line) :: rest

def trim (text : List Byte) : List Byte := (text.dropWhile leading).rdropWhile trailing

/-- The key and the value of a line, if it has both. -/
def entry (line : List Byte) : Option (List Byte × List Byte) :=
  let text := line.takeWhile (· ≠ HASH)
  let key := trim (text.takeWhile (· ≠ EQ))
  let value := trim ((text.dropWhile (· ≠ EQ)).drop 1)
  if text.contains EQ ∧ key ≠ [] ∧ value ≠ [] then some (key, value) else none

/-- The value of the first line that has this key. -/
def binding (file : List Byte) (key : List Byte) : Option (List Byte) :=
  ((lines file).filterMap entry).find? (·.1 = key) |>.map Prod.snd

/-- After `_LoadFile` the map binds each key as the grammar does. -/
def LoadedRight (file : List Byte) : Prop :=
  ∃ reader, loadFile ⟨false, fun _ => none⟩ (some file) = some (true, reader) ∧
    ∀ key value, reader.m_config_map key = some value ↔ binding file key = some value

/-! ### Trimming -/

section Trim
variable {text : List Byte}

theorem trailing_of_leading {byte : Byte} (lead : leading byte = true) : trailing byte = true := by
  simp only [leading, trailing, Bool.or_eq_true] at lead ⊢
  exact .inl (.inl lead)

theorem rdropWhile_append (lead rest : List Byte) : (lead ++ rest).rdropWhile trailing =
    if rest.rdropWhile trailing = [] then lead.rdropWhile trailing
    else lead ++ rest.rdropWhile trailing := by
  simp only [List.rdropWhile, List.reverse_append, List.dropWhile_append, List.isEmpty_iff,
    List.reverse_eq_nil_iff]
  split_ifs <;> simp

/-- What the second loop leaves of a text that is not blank begins with what the first passes by. -/
theorem rdropWhile_text (text : List Byte) : text.rdropWhile trailing =
    if trim text = [] then [] else text.takeWhile leading ++ trim text := by
  have gone : (text.takeWhile leading).rdropWhile trailing = [] := by
    apply List.rdropWhile_eq_nil_iff.mpr
    intro byte inside
    exact trailing_of_leading (List.mem_takeWhile_imp inside)
  calc text.rdropWhile trailing
    _ = (text.takeWhile leading ++ text.dropWhile leading).rdropWhile trailing :=
        congrArg _ List.takeWhile_append_dropWhile.symm
    _ = if trim text = [] then [] else text.takeWhile leading ++ trim text := by
        rw [rdropWhile_append, gone]
        rfl

/-- Trimming in place: the text is gone, or what is left of it ends where the trimmed text ends. -/
theorem trimSpace_eq (text : List Byte) :
    trimSpace text = if trim text = [] then none else some (trim text) := by
  have start := congrArg List.length (List.takeWhile_append_dropWhile (p := leading) (l := text))
  rw [List.length_append] at start
  have place : text.length - (text.dropWhile leading).length = (text.takeWhile leading).length := by
    omega
  simp only [trimSpace, place, rdropWhile_text]
  by_cases blank : trim text = []
  · simp [blank]
  · have some_rest : text.dropWhile leading ≠ [] := by
      intro nothing
      rw [trim, nothing] at blank
      exact blank rfl
    have kept : ¬(text.takeWhile leading ++ trim text).length ≤
        (text.takeWhile leading).length := by
      have longer := List.length_pos_iff.mpr blank
      rw [List.length_append]
      omega
    simp only [blank, some_rest, kept, if_false, List.drop_left]

end Trim

/-! ### One line -/

section Line
variable {line : List Byte} {map : ConfigMap}

/-- What a line of the grammar does to the map. -/
def bind (map : ConfigMap) (line : List Byte) : ConfigMap :=
  match entry line with
  | some (key, value) => map.insert key value
  | none => map

theorem parseLine_eq (line : List Byte) (map : ConfigMap) :
    parseLine (line.takeWhile (· ≠ HASH)) map = bind map line := by
  simp only [parseLine, bind, entry, trimSpace_eq]
  split_ifs <;> simp_all

theorem bind_nil (map : ConfigMap) : bind map [] = map := rfl

theorem takeWhile_of_absent {char : Byte} (absent : char ∉ line) :
    line.takeWhile (· ≠ char) = line := by
  apply List.takeWhile_eq_self_iff.mpr
  intro byte inside
  exact decide_eq_true fun same => absent (same ▸ inside)

/-- A whole line, with or without its newline. -/
theorem loadLine_eq (no_nul : 0 ∉ line) (no_newline : LF ∉ line) (map : ConfigMap) :
    loadLine line map = bind map line ∧ loadLine (line ++ [LF]) map = bind map line := by
  have string (rest : List Byte) (no_nul : 0 ∉ rest) : cString rest = rest :=
    takeWhile_of_absent no_nul
  have parsed : (if line.takeWhile (· ≠ HASH) = [] then map
      else parseLine (line.takeWhile (· ≠ HASH)) map) = bind map line := by
    rw [parseLine_eq]
    split_ifs with empty
    · have nothing := parseLine_eq line map
      rw [empty] at nothing
      exact nothing
    · rfl
  constructor
  · have last : line.getLast? ≠ some LF := by
      intro ends
      exact no_newline (List.mem_of_getLast? ends)
    simpa only [loadLine, string line no_nul, last, if_false] using parsed
  · have last : 0 ∉ line ++ [LF] := by
      simp only [List.mem_append, List.mem_singleton, not_or]
      exact ⟨no_nul, by decide⟩
    simpa only [loadLine, string _ last, List.getLast?_concat, if_true, List.dropLast_concat]
      using parsed

end Line

/-! ### One call of `fgets` -/

section Fgets
variable {line rest : List Byte} {room : Nat}

/-- The line is longer than the room. -/
theorem fgetsLoop_full (no_newline : LF ∉ line) (longer : room ≤ line.length) (rest : List Byte) :
    fgetsLoop room (line ++ rest) = (line.take room, line.drop room ++ rest) := by
  induction line generalizing room with
  | nil =>
    obtain rfl : room = 0 := Nat.le_zero.mp longer
    rfl
  | cons byte line ih =>
    cases room with
    | zero => rfl
    | succ room =>
      rw [List.mem_cons, not_or] at no_newline
      rw [List.cons_append, fgetsLoop, if_neg (Ne.symm no_newline.1),
        ih no_newline.2 (Nat.le_of_succ_le_succ longer)]
      rfl

/-- The line and its newline have room. -/
theorem fgetsLoop_line (no_newline : LF ∉ line) (shorter : line.length < room) :
    fgetsLoop room (line ++ LF :: rest) = (line ++ [LF], rest) := by
  induction line generalizing room with
  | nil =>
    obtain ⟨more, rfl⟩ := Nat.exists_eq_succ_of_ne_zero (Nat.ne_of_gt shorter)
    rfl
  | cons byte line ih =>
    obtain ⟨more, rfl⟩ := Nat.exists_eq_succ_of_ne_zero (Nat.ne_of_gt (Nat.zero_lt_of_lt shorter))
    rw [List.mem_cons, not_or] at no_newline
    rw [List.cons_append, fgetsLoop, if_neg (Ne.symm no_newline.1),
      ih no_newline.2 (Nat.lt_of_succ_lt_succ shorter)]
    rfl

/-- The last line, without a newline. -/
theorem fgetsLoop_last (no_newline : LF ∉ line) (fits : line.length ≤ room) :
    fgetsLoop room line = (line, []) := by
  induction line generalizing room with
  | nil => cases room <;> rfl
  | cons byte line ih =>
    obtain ⟨more, rfl⟩ := Nat.exists_eq_succ_of_ne_zero (Nat.ne_of_gt (Nat.zero_lt_of_lt fits))
    rw [List.mem_cons, not_or] at no_newline
    rw [fgetsLoop, if_neg (Ne.symm no_newline.1), ih no_newline.2 (Nat.le_of_succ_le_succ fits)]

/-- What is read is taken off the file. -/
theorem fgetsLoop_length (room : Nat) (file : List Byte) :
    (fgetsLoop room file).1.length + (fgetsLoop room file).2.length = file.length := by
  induction file generalizing room with
  | nil => cases room <;> rfl
  | cons byte file ih =>
    cases room with
    | zero => exact Nat.zero_add _
    | succ room =>
      rw [fgetsLoop]
      split_ifs
      · exact Nat.add_comm _ _
      · have rest := ih room
        simp only [List.length_cons]
        omega

end Fgets

/-! ### The loop -/

section Loop
variable {line rest file : List Byte} {map after : ConfigMap}

/-- The loop with the calls that the file needs. -/
def load (file : List Byte) (map : ConfigMap) : Option ConfigMap :=
  loadLoop (file.length + 1) file map

theorem fgets_shorter {buf : List Byte} (read : fgets 256 file = some (buf, rest)) :
    rest.length < file.length := by
  rw [fgets] at read
  split_ifs at read with some_byte
  obtain ⟨byte, file, rfl⟩ := List.exists_cons_of_ne_nil some_byte
  have read := Option.some.inj read
  have length := fgetsLoop_length 255 (byte :: file)
  have first : (fgetsLoop 255 (byte :: file)).1 ≠ [] := by
    rw [fgetsLoop]
    split_ifs <;> simp
  rw [read] at length first
  simp only at length first
  have := List.length_pos_iff.mpr first
  omega

theorem loadLoop_enough {calls : Nat} (enough : file.length < calls) (map : ConfigMap) :
    loadLoop calls file map = load file map := by
  have same (calls other : Nat) : ∀ (file : List Byte) (map : ConfigMap), file.length < calls →
      file.length < other → loadLoop calls file map = loadLoop other file map := by
    induction calls generalizing other with
    | zero => exact fun file map enough => absurd enough (Nat.not_lt_zero _)
    | succ calls ih =>
      intro file map enough also
      obtain ⟨others, rfl⟩ := Nat.exists_eq_succ_of_ne_zero (Nat.ne_of_gt (Nat.zero_lt_of_lt also))
      rw [loadLoop, loadLoop]
      cases read : fgets 256 file with
      | none => rfl
      | some both =>
        have shorter : both.2.length < file.length := fgets_shorter read
        exact ih others both.2 _ (by omega) (by omega)
  exact same _ _ _ _ enough (Nat.lt_succ_self _)

theorem load_nil (map : ConfigMap) : load [] map = some map := rfl

/-- One turn of the loop. -/
theorem load_read {buf : List Byte} (read : fgetsLoop 255 file = (buf, rest))
    (some_byte : file ≠ []) (map : ConfigMap) : load file map = load rest (loadLine buf map) := by
  have gets : fgets 256 file = some (buf, rest) := by rw [fgets, if_neg some_byte, read]
  rw [load, loadLoop, gets]
  exact loadLoop_enough (fgets_shorter gets) _

theorem bind_of_empty (map : ConfigMap) : loadLine [LF] map = map := rfl

/-- A line that fits is read as one line. Its newline may be read by a call of its own. -/
theorem load_line (no_nul : 0 ∉ line) (no_newline : LF ∉ line) (fits : line.length ≤ 255)
    (map : ConfigMap) : load (line ++ LF :: rest) map = load rest (bind map line) := by
  have parsed := loadLine_eq no_nul no_newline map
  rcases Nat.lt_or_eq_of_le fits with shorter | full
  · rw [load_read (fgetsLoop_line no_newline shorter) (by simp), parsed.2]
  · have read := fgetsLoop_full no_newline full.ge (LF :: rest)
    have newline : fgetsLoop 255 (LF :: rest) = ([LF], rest) := rfl
    rw [← full, List.take_length, List.drop_length, List.nil_append, full] at read
    rw [load_read read (by simp), parsed.1, load_read newline (by simp), bind_of_empty]

theorem load_last (no_nul : 0 ∉ line) (no_newline : LF ∉ line) (fits : line.length ≤ 255)
    (map : ConfigMap) : load line map = some (bind map line) := by
  by_cases some_byte : line = []
  · rw [some_byte, load_nil, bind_nil]
  · rw [load_read (fgetsLoop_last no_newline fits) some_byte, (loadLine_eq no_nul no_newline map).1,
      load_nil]

end Loop

/-! ### Files -/

section Files
variable {line rest file : List Byte}

theorem lines_line (no_newline : LF ∉ line) : lines (line ++ LF :: rest) = line :: lines rest := by
  induction line with
  | nil => rfl
  | cons byte line ih =>
    rw [List.mem_cons, not_or] at no_newline
    rw [List.cons_append, lines, if_neg (Ne.symm no_newline.1), ih no_newline.2]

theorem lines_last (no_newline : LF ∉ line) (some_byte : line ≠ []) : lines line = [line] := by
  induction line with
  | nil => exact absurd rfl some_byte
  | cons byte line ih =>
    rw [List.mem_cons, not_or] at no_newline
    rw [lines, if_neg (Ne.symm no_newline.1)]
    by_cases last : line = []
    · rw [last]
      rfl
    · rw [ih no_newline.2 last]

/-- A file ends, ends in a line without a newline, or begins with a line. -/
theorem file_cases (file : List Byte) : LF ∉ file ∨
    ∃ line rest, file = line ++ LF :: rest ∧ LF ∉ line := by
  by_cases newline : LF ∈ file
  · obtain ⟨line, rest, split, first⟩ := List.eq_append_cons_of_mem newline
    exact .inr ⟨line, rest, split, first⟩
  · exact .inl newline

/-- The loop reads a file by the grammar when its lines fit. -/
theorem load_lines (file : List Byte) (no_nul : 0 ∉ file)
    (fits : ∀ line ∈ lines file, line.length ≤ 255) (map : ConfigMap) :
    load file map = some ((lines file).foldl bind map) := by
  induction length : file.length using Nat.strong_induction_on generalizing file map with
  | _ length ih =>
    subst length
    rcases file_cases file with last | ⟨line, rest, rfl, no_newline⟩
    · by_cases some_byte : file = []
      · rw [some_byte]
        rfl
      · rw [lines_last last some_byte] at fits ⊢
        exact load_last no_nul last (fits file List.mem_cons_self) map
    · rw [lines_line no_newline] at fits ⊢
      rw [List.mem_append, List.mem_cons, not_or, not_or] at no_nul
      rw [load_line no_nul.1 no_newline (fits line List.mem_cons_self), List.foldl_cons]
      refine ih rest.length ?_ rest no_nul.2.2 ?_ _ rfl
      · simp only [List.length_append, List.length_cons]
        omega
      · exact fun other inside => fits other (List.mem_cons_of_mem _ inside)

/-- What the lines bind in turn is what the first line with the key binds. -/
theorem foldl_bind (texts : List (List Byte)) (map : ConfigMap) (key : List Byte) :
    texts.foldl bind map key =
      (map key).or (((texts.filterMap entry).find? (·.1 = key)).map Prod.snd) := by
  induction texts generalizing map with
  | nil => simp
  | cons line texts ih =>
    rw [List.foldl_cons, ih, bind, List.filterMap_cons]
    cases entry line with
    | none => rfl
    | some both =>
      obtain ⟨name, value⟩ := both
      simp only [ConfigMap.insert, List.find?_cons]
      by_cases same : name = key
      · subst same
        cases known : map name <;> simp [known]
      · have other : key ≠ name := Ne.symm same
        split_ifs <;> simp [same, Function.update_of_ne other]

end Files

/-- A file whose lines fit is read right. -/
theorem loadedRight_of_fits {file : List Byte} (no_nul : 0 ∉ file)
    (fits : ∀ line ∈ lines file, line.length ≤ 255) : LoadedRight file := by
  have loaded := load_lines file no_nul fits fun _ => none
  refine ⟨⟨true, (lines file).foldl bind fun _ => none⟩, ?_, ?_⟩
  · simp only [loadFile]
    rw [← load, loaded]
    rfl
  · intro key value
    simp only [foldl_bind, Option.none_or]
    rfl

/-! ### A line that does not fit -/

def keyByte : Byte := 0x6b
def valueByte : Byte := 0x61

/-- A line with a key and a value. -/
def longLine (length : Nat) : List Byte := keyByte :: EQ :: List.replicate (length - 2) valueByte

/-- A line of this length: a comment, unless it does not fit. -/
def lineOf (length : Nat) : List Byte :=
  if length ≤ 255 then List.replicate length HASH else longLine length

def fileOf (lengths : List Nat) : List Byte := lengths.flatMap fun length => lineOf length ++ [LF]

section Long
variable {length : Nat} {lengths : List Nat} {map : ConfigMap}

theorem fileOf_cons (length : Nat) (lengths : List Nat) :
    fileOf (length :: lengths) = lineOf length ++ LF :: fileOf lengths := by
  rw [fileOf, List.flatMap_cons, List.append_assoc]
  rfl

theorem mem_lineOf {byte : Byte} (inside : byte ∈ lineOf length) :
    byte = HASH ∨ byte = keyByte ∨ byte = EQ ∨ byte = valueByte := by
  unfold lineOf longLine at inside
  split_ifs at inside
  · exact .inl (List.eq_of_mem_replicate inside)
  · simp only [List.mem_cons] at inside
    rcases inside with same | same | same
    · exact .inr (.inl same)
    · exact .inr (.inr (.inl same))
    · exact .inr (.inr (.inr (List.eq_of_mem_replicate same)))

theorem lineOf_plain (length : Nat) : 0 ∉ lineOf length ∧ LF ∉ lineOf length := by
  constructor
  · intro inside
    exact absurd (mem_lineOf inside) (by decide)
  · intro inside
    exact absurd (mem_lineOf inside) (by decide)

theorem lineOf_length (length : Nat) : (lineOf length).length = length := by
  unfold lineOf longLine
  split_ifs
  · simp
  · simp only [List.length_cons, List.length_replicate]
    omega

theorem lines_fileOf (lengths : List Nat) : lines (fileOf lengths) = lengths.map lineOf := by
  induction lengths with
  | nil => rfl
  | cons length lengths ih =>
    rw [fileOf_cons, lines_line (lineOf_plain length).2, ih]
    rfl

theorem fileOf_no_nul (lengths : List Nat) : 0 ∉ fileOf lengths := by
  induction lengths with
  | nil => exact List.not_mem_nil
  | cons length lengths ih =>
    rw [fileOf_cons, List.mem_append, List.mem_cons, not_or, not_or]
    exact ⟨(lineOf_plain length).1, by decide, ih⟩

theorem entry_hash (text : List Byte) : entry (HASH :: text) = none := by
  simp [entry]

theorem entry_comment (length : Nat) : entry (List.replicate length HASH) = none := by
  cases length with
  | zero => rfl
  | succ length => exact entry_hash _

/-- A text of bytes that are no blanks is trimmed already. -/
theorem trim_values (count : Nat) :
    trim (List.replicate count valueByte) = List.replicate count valueByte := by
  have start : (List.replicate count valueByte).dropWhile leading =
      List.replicate count valueByte := by
    cases count <;> rfl
  rw [trim, start, List.rdropWhile, List.reverse_replicate]
  cases count with
  | zero => rfl
  | succ count =>
    rw [List.replicate_succ, List.dropWhile_cons_of_neg (by decide), ← List.replicate_succ,
      List.reverse_replicate]

theorem entry_longLine (some_value : 2 < length) :
    entry (longLine length) = some ([keyByte], List.replicate (length - 2) valueByte) := by
  have text : (longLine length).takeWhile (· ≠ HASH) = longLine length := by
    apply takeWhile_of_absent
    rw [longLine, List.mem_cons, List.mem_cons, not_or, not_or]
    refine ⟨by decide, by decide, ?_⟩
    exact fun inside => absurd (List.eq_of_mem_replicate inside) (by decide)
  have key : trim ((longLine length).takeWhile (· ≠ EQ)) = [keyByte] := rfl
  have value : trim (((longLine length).dropWhile (· ≠ EQ)).drop 1) =
      List.replicate (length - 2) valueByte := trim_values (length - 2)
  have some_byte : List.replicate (length - 2) valueByte ≠ [] := by
    rw [Ne, List.replicate_eq_nil_iff]
    omega
  simp only [entry, text, key, value]
  rw [if_pos ⟨by simp [longLine], by simp, some_byte⟩]

/-- Of a line that does not fit, the first 255 bytes are read as a line. -/
theorem load_longLine (long : 255 < length) (rest : List Byte) (map : ConfigMap) :
    ∃ later, load (longLine length ++ rest) map =
      load later (map.insert [keyByte] (List.replicate 253 valueByte)) := by
  have plain := lineOf_plain length
  have shape : lineOf length = longLine length := if_neg (by omega)
  have first : (longLine length).take 255 = longLine 255 := by
    have values : List.replicate (length - 2) valueByte =
        List.replicate 253 valueByte ++ List.replicate (length - 255) valueByte := by
      rw [← List.replicate_add]
      exact congrArg (List.replicate · valueByte) (by omega)
    rw [longLine, values]
    exact congrArg (keyByte :: EQ :: ·) (List.take_left' List.length_replicate)
  rw [shape] at plain
  have longer : 255 ≤ (longLine length).length := by
    rw [← shape, lineOf_length]
    omega
  have read := fgetsLoop_full plain.2 longer rest
  rw [first] at read
  have no_nul : 0 ∉ longLine 255 := fun inside => plain.1 (List.mem_of_mem_take (first ▸ inside))
  have no_newline : LF ∉ longLine 255 :=
    fun inside => plain.2 (List.mem_of_mem_take (first ▸ inside))
  have value : entry (longLine 255) = some ([keyByte], List.replicate 253 valueByte) :=
    entry_longLine (by decide)
  have bound : bind map (longLine 255) =
      map.insert [keyByte] (List.replicate 253 valueByte) := by rw [bind, value]
  rw [load_read read (by simp [longLine]), (loadLine_eq no_nul no_newline map).1, bound]
  exact ⟨_, rfl⟩

theorem insert_new {key value : List Byte} (fresh : map key = none) :
    map.insert key value key = some value := by
  rw [ConfigMap.insert, if_neg (by simp [fresh]), Function.update_self]

theorem insert_keeps {key value : List Byte} (bound : map key = some value)
    (name other : List Byte) : map.insert name other key = some value := by
  unfold ConfigMap.insert
  split_ifs with known
  · exact bound
  · have apart : key ≠ name := by
      rintro rfl
      exact known (by rw [bound]; rfl)
    rw [Function.update_of_ne apart, bound]

/-- A binding stays as it is. -/
theorem loadLine_keeps {key value : List Byte} (bound : map key = some value) (buf : List Byte) :
    loadLine buf map key = some value := by
  have parsed (line : List Byte) : parseLine line map key = some value := by
    rw [parseLine]
    split_ifs
    · cases trimSpace (line.takeWhile (· ≠ EQ)) with
      | none => exact bound
      | some name =>
        cases trimSpace ((line.dropWhile (· ≠ EQ)).drop 1) with
        | none => exact bound
        | some other => exact insert_keeps bound name other
    · exact bound
  simp only [loadLine]
  generalize List.takeWhile _ _ = line
  split_ifs
  · exact bound
  · exact parsed line

/-- The loop ends, and keeps every binding. -/
theorem load_keeps {key value : List Byte} (file : List Byte) {map : ConfigMap}
    (bound : map key = some value) :
    ∃ after, load file map = some after ∧ after key = some value := by
  induction length : file.length using Nat.strong_induction_on generalizing file map with
  | _ length ih =>
    subst length
    by_cases some_byte : file = []
    · rw [some_byte]
      exact ⟨map, rfl, bound⟩
    · have gets : fgets 256 file = some (fgetsLoop 255 file) := if_neg some_byte
      rw [load_read (Prod.eta (fgetsLoop 255 file)).symm some_byte]
      exact ih _ (fgets_shorter gets) _ (loadLine_keeps bound _) rfl

theorem later_long {length : Nat} (fits : length ≤ 255)
    (long : ∃ other ∈ length :: lengths, 255 < other) : ∃ other ∈ lengths, 255 < other := by
  obtain ⟨other, inside, longer⟩ := long
  rcases List.mem_cons.mp inside with rfl | inside
  · omega
  · exact ⟨other, inside, longer⟩

/-- The key of the long line gets the part of its value that fits. -/
theorem load_fileOf (long : ∃ length ∈ lengths, 255 < length) (map : ConfigMap)
    (fresh : map [keyByte] = none) : ∃ after, load (fileOf lengths) map = some after ∧
      after [keyByte] = some (List.replicate 253 valueByte) := by
  induction lengths with
  | nil => exact absurd long (by simp)
  | cons length lengths ih =>
    rw [fileOf_cons]
    by_cases fits : length ≤ 255
    · have comment : lineOf length = List.replicate length HASH := if_pos fits
      rw [load_line (lineOf_plain length).1 (lineOf_plain length).2
        ((lineOf_length length).trans_le fits), bind, comment, entry_comment]
      exact ih (later_long fits long)
    · have shape : lineOf length = longLine length := if_neg fits
      obtain ⟨rest, loaded⟩ := load_longLine (by omega : 255 < length) (LF :: fileOf lengths) map
      rw [shape, loaded]
      exact load_keeps rest (insert_new fresh)

/-- By the grammar it has the whole value. -/
theorem binding_fileOf (long : ∃ length ∈ lengths, 255 < length) :
    ∃ count, 253 < count ∧
      binding (fileOf lengths) [keyByte] = some (List.replicate count valueByte) := by
  rw [binding, lines_fileOf]
  induction lengths with
  | nil => exact absurd long (by simp)
  | cons length lengths ih =>
    rw [List.map_cons, List.filterMap_cons]
    by_cases fits : length ≤ 255
    · have comment : lineOf length = List.replicate length HASH := if_pos fits
      rw [comment, entry_comment]
      exact ih (later_long fits long)
    · have shape : lineOf length = longLine length := if_neg fits
      rw [shape, entry_longLine (by omega)]
      exact ⟨length - 2, by omega, by simp⟩

/-- The map of a file that is read right is the one that the loop leaves. -/
theorem LoadedRight.agrees {file : List Byte} (right : LoadedRight file) {after : ConfigMap}
    (ran : load file (fun _ => none) = some after) (key value : List Byte) :
    after key = some value ↔ binding file key = some value := by
  obtain ⟨reader, loaded, agrees⟩ := right
  simp only [loadFile] at loaded
  rw [← load, ran] at loaded
  cases loaded
  exact agrees key value

/-- The end of a comment that does not fit is read as a line. -/
theorem load_comment (rest : List Byte) (map : ConfigMap) :
    load (HASH :: (List.replicate 254 HASH ++ rest)) map = load rest map := by
  have shape : HASH :: (List.replicate 254 HASH ++ rest) = List.replicate 255 HASH ++ rest := rfl
  have hashes (byte : Byte) (other : byte ≠ HASH) : byte ∉ List.replicate 255 HASH :=
    fun inside => other (List.eq_of_mem_replicate inside)
  have length : (List.replicate 255 HASH).length = 255 := List.length_replicate
  have read := fgetsLoop_full (hashes LF (by decide)) length.ge rest
  have parsed := (loadLine_eq (hashes 0 (by decide)) (hashes LF (by decide)) map).1
  rw [List.take_of_length_le length.le, List.drop_of_length_le length.le, List.nil_append] at read
  rw [load_read (shape ▸ read) (List.cons_ne_nil _ _), parsed, bind, entry_comment]

theorem not_loadedRight (long : ∃ length ∈ lengths, 255 < length) :
    ¬LoadedRight (fileOf lengths) := by
  intro right
  obtain ⟨after, ran, cut⟩ := load_fileOf long (fun _ => none) rfl
  obtain ⟨count, longer, whole⟩ := binding_fileOf long
  rw [right.agrees ran, whole, Option.some.injEq] at cut
  have counted := congrArg List.length cut
  simp only [List.length_replicate] at counted
  omega

end Long

/-- Files with lines of these lengths are all read right if and only if each line has at most 255
bytes: one less than the buffer, which also holds the terminator. -/
theorem loadedRight_iff (lengths : List Nat) :
    (∀ file, 0 ∉ file → (lines file).map List.length = lengths → LoadedRight file) ↔
      ∀ length ∈ lengths, length ≤ 255 := by
  constructor
  · intro right
    by_contra not_all
    have long : ∃ length ∈ lengths, 255 < length := by
      simpa only [not_forall, not_le, exists_prop] using not_all
    have measured : (lines (fileOf lengths)).map List.length = lengths := by
      rw [lines_fileOf, List.map_map]
      exact (List.map_congr_left fun length _ => lineOf_length length).trans (List.map_id _)
    exact not_loadedRight long (right (fileOf lengths) (fileOf_no_nul lengths) measured)
  · rintro fits file no_nul rfl
    apply loadedRight_of_fits no_nul
    exact fun line inside => fits line.length (List.mem_map_of_mem inside)

/-- Of a line of 256 bytes the last byte of the value is lost, and of a comment of 258 bytes the
last three are taken as an entry. -/
theorem long_lines_misread :
    ¬LoadedRight (fileOf [256]) ∧
      ¬LoadedRight (HASH :: (List.replicate 254 HASH ++ [keyByte, EQ, valueByte])) := by
  refine ⟨not_loadedRight ⟨256, List.mem_cons_self, by decide⟩, ?_⟩
  intro right
  have ran := (load_comment [keyByte, EQ, valueByte] fun _ => none).trans
    (load_last (by decide) (by decide) (by decide) _)
  have taken : bind (fun _ => none) [keyByte, EQ, valueByte] [keyByte] = some [valueByte] := by
    decide
  have one : LF ∉ HASH :: (List.replicate 254 HASH ++ [keyByte, EQ, valueByte]) := by
    rw [List.mem_cons, List.mem_append, not_or, not_or]
    exact ⟨by decide, fun inside => absurd (List.eq_of_mem_replicate inside) (by decide),
      by decide⟩
  have absent : binding (HASH :: (List.replicate 254 HASH ++ [keyByte, EQ, valueByte]))
      [keyByte] = none := by
    rw [binding, lines_last one (List.cons_ne_nil _ _), List.filterMap_cons, entry_hash]
    rfl
  rw [right.agrees ran, absent] at taken
  cases taken

end SNFrame.Base.ConfigGrammar
