import SNFrame.Base.ConfigBuffer

/-! The lines for which `_LoadFile` stays in its buffer. For these the map it leaves is the one
of the reader on lists. -/

namespace SNFrame.Base.ConfigBounds
open Library.Octet Library.Bounds Library.Bounds.Code Library.CString ConfigGrammar ConfigBuffer
open ConfigFileReader hiding trimSpace parseLine loadLine loadLoop

/-! ### Clean lines -/

/-- What is left of a line without its newline and its comment. -/
def textOf (piece : List Byte) : List Byte :=
  let line := cString piece
  let line := if line.getLast? = some LF then line.dropLast else line
  line.takeWhile (· ≠ HASH)

/-- Both sides of the first `=` of a line, if it has one. -/
def SidesStop (line : List Byte) : Prop :=
  EQ ∈ line → Stops (line.takeWhile (· ≠ EQ)) ∧ Stops ((line.dropWhile (· ≠ EQ)).drop 1)

def Clean (piece : List Byte) : Prop := piece.head? ≠ some 0 ∧ SidesStop (textOf piece)

/-- What the calls of `fgets` read, one after the other. -/
def pieces : Nat → List Byte → List (List Byte)
  | 0, _ => []
  | calls + 1, file =>
    match fgets BUF file with
    | none => []
    | some (piece, rest) => piece :: pieces calls rest

/-! ### One line -/

section Line
variable {line key value text rest : List Byte} {map : ConfigMap}

/-- What the insertion makes of the two strings. -/
def insertBoth (map : ConfigMap) : Option (List Byte) → Option (List Byte) → ConfigMap
  | some key, some value => map.insert key value
  | _, _ => map

theorem insertPair_runs {buf : List Byte} {keyPtr valuePtr : Option Nat}
    {name other : Option (List Byte)} (sized : buf.length = BUF) (map : ConfigMap)
    (points : Points buf keyPtr name) (also : Points buf valuePtr other) :
    Runs (insertPair map keyPtr valuePtr) buf (insertBoth map name other) buf := by
  have copies {place : Nat} {text : List Byte} (held : StringAt buf place text) :
      Runs (copyString place (BUF - place) place) buf text buf :=
    copyString_runs held le_rfl (sized ▸ held.room.1)
  cases keyPtr with
  | none =>
    cases name with
    | none => exact runs_pure _ _
    | some name => exact points.elim
  | some key =>
    cases name with
    | none => exact points.elim
    | some name =>
      cases valuePtr with
      | none =>
        cases other with
        | none => exact runs_pure _ _
        | some other => exact also.elim
      | some value =>
        cases other with
        | none => exact also.elim
        | some other => exact (copies points).bind ((copies also).bind (runs_pure _ _))

/-- The terminator that takes the place of the `=`. -/
theorem cut_runs (key value rest : List Byte) : Runs (write 0 key.length 0)
    (key ++ EQ :: value ++ 0 :: rest) () (key ++ 0 :: (value ++ 0 :: rest)) := by
  rw [List.append_assoc]
  exact runs_write (Nat.zero_le _)

/-- The key is trimmed in front of the value. -/
theorem trimKey_runs (plain : 0 ∉ key) (sized : (key ++ 0 :: (value ++ 0 :: rest)).length = BUF)
    (stops : Stops key) : ∃ ptr before, key.length + 1 = before.length ∧
      Runs (trimSpace 0) (key ++ 0 :: (value ++ 0 :: rest)) ptr
        (before ++ (value ++ 0 :: rest)) ∧
      Points before ptr (ConfigFileReader.trimSpace key) := by
  obtain ⟨ptr, cleared, length, ran, points⟩ :=
    @trimSpace_runs [] key (value ++ 0 :: rest) plain sized stops
  have shape : [] ++ (cleared ++ 0 :: (value ++ 0 :: rest)) =
      (cleared ++ [0]) ++ (value ++ 0 :: rest) := by simp
  rw [shape] at ran
  exact ⟨ptr, cleared ++ [0], by simp [length], ran, points⟩

theorem parsePair_runs (plain : 0 ∉ key) (also : 0 ∉ value)
    (sized : (key ++ EQ :: value ++ 0 :: rest).length = BUF) (map : ConfigMap)
    (stops : Stops key ∧ Stops value) : ∃ after,
      Runs (parsePair 0 key.length map) (key ++ EQ :: value ++ 0 :: rest)
        (insertBoth map (ConfigFileReader.trimSpace key) (ConfigFileReader.trimSpace value))
        after := by
  have cut := cut_runs key value rest
  have size := cut.length.trans sized
  obtain ⟨keyPtr, before, place, ran, points⟩ := trimKey_runs plain size stops.1
  have second := ran.length.trans size
  obtain ⟨valuePtr, clean, _, runs, found⟩ := trimSpace_runs also second stops.2
  have whole : before ++ (clean ++ [0]) ++ rest = before ++ (clean ++ 0 :: rest) := by simp
  have valuePoints := found.append rest
  rw [whole] at valuePoints
  have pair := insertPair_runs (runs.length.trans second) map (points.append (clean ++ 0 :: rest))
    valuePoints
  rw [← place] at runs
  exact ⟨_, cut.bind (ran.bind (runs.bind pair))⟩

theorem parsePair_leaves (plain : 0 ∉ key) (also : 0 ∉ value)
    (sized : (key ++ EQ :: value ++ 0 :: rest).length = BUF) (map : ConfigMap)
    (goes_on : ¬(Stops key ∧ Stops value)) :
    ¬(parsePair 0 key.length map).AllInside (key ++ EQ :: value ++ 0 :: rest) := by
  have cut := cut_runs key value rest
  have size := cut.length.trans sized
  intro inside
  rw [parsePair, allInside_bind cut] at inside
  by_cases stops : Stops key
  · obtain ⟨_, before, place, ran, _⟩ := trimKey_runs plain size stops
    have leaves := trimSpace_leaves also (ran.length.trans size) fun stop => goes_on ⟨stops, stop⟩
    rw [← place] at leaves
    exact leaves (allInside_first ((allInside_bind ran).mp inside))
  · exact @trimSpace_leaves [] key (value ++ 0 :: rest) plain size stops (allInside_first inside)

/-- A text cut at the first place of a character. -/
theorem cut_at_first {char : Byte} {left : List Byte} (absent : char ∉ left) (right : List Byte) :
    (left ++ char :: right).takeWhile (· ≠ char) = left ∧
      ((left ++ char :: right).dropWhile (· ≠ char)).drop 1 = right := by
  induction left with
  | nil => simp
  | cons byte left ih =>
    rw [List.mem_cons, not_or] at absent
    have passed : byte ≠ char := Ne.symm absent.1
    simp only [List.cons_append, List.takeWhile_cons, List.dropWhile_cons, passed, ne_eq,
      not_false_eq_true, decide_true, if_true, (ih absent.2).1]
    exact ⟨trivial, (ih absent.2).2⟩

theorem not_mem_takeWhile (char : Byte) (line : List Byte) :
    char ∉ line.takeWhile (· ≠ char) := by
  intro member
  have passed := List.mem_takeWhile_imp member
  exact absurd passed (by simp)

/-- A line whose sides stop the second loop is parsed as the reader parses it. -/
theorem parseLine_runs (plain : 0 ∉ line) (sized : (line ++ 0 :: rest).length = BUF)
    (map : ConfigMap) (stops : SidesStop line) : ∃ after,
      Runs (parseLine 0 map) (line ++ 0 :: rest) (ConfigFileReader.parseLine line map) after := by
  have held := stringAt_intro [] plain rest
  rw [ConfigFileReader.parseLine]
  by_cases present : EQ ∈ line
  · have sides := stops present
    rw [if_pos present]
    obtain ⟨key, value, rfl, absent⟩ := List.eq_append_cons_of_mem present
    obtain ⟨first, second⟩ := cut_at_first absent value
    rw [first, second] at sides ⊢
    have parts := fun member => plain (List.mem_append_left _ member)
    have ends := fun member => plain (List.mem_append_right _ (List.mem_cons_of_mem _ member))
    obtain ⟨after, ran⟩ := parsePair_runs parts ends sized map sides
    refine ⟨after, (strchr_first held sized le_rfl absent).bind ?_⟩
    rw [List.length_nil, Nat.zero_add]
    exact ran
  · rw [if_neg present]
    exact ⟨_, (strchr_absent held sized le_rfl present (by decide)).bind (runs_pure _ _)⟩

theorem parseLine_leaves (plain : 0 ∉ line) (sized : (line ++ 0 :: rest).length = BUF)
    (map : ConfigMap) (goes_on : ¬SidesStop line) :
    ¬(parseLine 0 map).AllInside (line ++ 0 :: rest) := by
  have held := stringAt_intro [] plain rest
  rw [SidesStop, Classical.not_imp] at goes_on
  obtain ⟨present, sides⟩ := goes_on
  obtain ⟨key, value, rfl, absent⟩ := List.eq_append_cons_of_mem present
  obtain ⟨first, second⟩ := cut_at_first absent value
  rw [first, second] at sides
  intro inside
  have parts := fun member => plain (List.mem_append_left _ member)
  have ends := fun member => plain (List.mem_append_right _ (List.mem_cons_of_mem _ member))
  have found := (allInside_bind (strchr_first held sized le_rfl absent)).mp inside
  rw [List.length_nil, Nat.zero_add] at found
  exact parsePair_leaves parts ends sized map sides found

theorem removeNewline_runs (some_byte : text ≠ []) : ∃ more,
    Runs (removeNewline text.length) (text ++ 0 :: rest) ()
      ((if text.getLast? = some LF then text.dropLast else text) ++ 0 :: more) := by
  obtain ⟨init, last, rfl⟩ : ∃ init last, text = init ++ [last] :=
    ⟨_, _, (List.dropLast_concat_getLast some_byte).symm⟩
  have place : (((init ++ [last]).length : Nat) : Int) - 1 = (init.length : Nat) := by simp
  have shape : init ++ [last] ++ 0 :: rest = init ++ last :: 0 :: rest := by simp
  rw [List.getLast?_concat, List.dropLast_concat, removeNewline, place, shape]
  by_cases newline : last = LF
  · refine ⟨0 :: rest, (runs_read (Nat.zero_le _)).bind ?_⟩
    rw [newline, if_pos rfl, if_pos rfl]
    exact runs_write (Nat.zero_le _)
  · refine ⟨rest, (runs_read (Nat.zero_le _)).bind ?_⟩
    rw [if_neg newline, if_neg fun same => newline (Option.some.inj same), ← shape]
    exact runs_pure _ _

theorem removeComment_runs (plain : 0 ∉ text) (sized : (text ++ 0 :: rest).length = BUF) :
    ∃ more, Runs removeComment (text ++ 0 :: rest) ()
      (text.takeWhile (· ≠ HASH) ++ 0 :: more) := by
  have held := stringAt_intro [] plain rest
  by_cases present : HASH ∈ text
  · obtain ⟨kept, comment, rfl, absent⟩ := List.eq_append_cons_of_mem present
    rw [(cut_at_first absent comment).1]
    refine ⟨comment ++ 0 :: rest, (strchr_first held sized le_rfl absent).bind ?_⟩
    rw [List.length_nil, Nat.zero_add, List.append_assoc]
    exact runs_write (Nat.zero_le _)
  · rw [takeWhile_of_absent present]
    exact ⟨rest, (strchr_absent held sized le_rfl present (by decide)).bind (runs_pure _ _)⟩

/-- What `fgets` stores begins with the string that the code reads. -/
theorem cString_split (piece rest : List Byte) : ∃ more,
    piece ++ 0 :: rest = cString piece ++ 0 :: more := by
  by_cases nul : (0 : Byte) ∈ piece
  · obtain ⟨text, more, rfl, absent⟩ := List.eq_append_cons_of_mem nul
    rw [cString, (cut_at_first absent more).1, List.append_assoc]
    exact ⟨more ++ 0 :: rest, rfl⟩
  · rw [cString, takeWhile_of_absent nul]
    exact ⟨rest, rfl⟩

/-- The string is one without its newline and without its comment. -/
theorem zero_not_mem_line (piece : List Byte) :
    0 ∉ if (cString piece).getLast? = some LF then (cString piece).dropLast else cString piece := by
  intro member
  apply not_mem_takeWhile 0 piece
  split_ifs at member
  · exact (List.dropLast_prefix _).subset member
  · exact member

theorem zero_not_mem_textOf (piece : List Byte) : 0 ∉ textOf piece :=
  fun member => zero_not_mem_line piece ((List.takeWhile_prefix _).subset member)

/-- The steps of the loop's body up to `_ParseLine`. -/
theorem loadLine_steps {piece : List Byte} (sized : (piece ++ 0 :: rest).length = BUF)
    (some_byte : cString piece ≠ []) (map : ConfigMap) : ∃ more,
      (textOf piece ++ 0 :: more).length = BUF ∧
      ((loadLine map).AllInside (piece ++ 0 :: rest) ↔
        (if (textOf piece).length = 0 then pure map else parseLine 0 map).AllInside
          (textOf piece ++ 0 :: more)) ∧
      ∀ value after,
        Runs (if (textOf piece).length = 0 then pure map else parseLine 0 map)
          (textOf piece ++ 0 :: more) value after →
        Runs (loadLine map) (piece ++ 0 :: rest) value after := by
  obtain ⟨more, split⟩ := cString_split piece rest
  have plain := not_mem_takeWhile 0 piece
  rw [split] at sized ⊢
  have length : Runs (strlen BUF 0 0) (cString piece ++ 0 :: more) (cString piece).length _ :=
    strlen_runs (stringAt_intro [] plain more) sized le_rfl
  obtain ⟨rest, newline⟩ := @removeNewline_runs (cString piece) more some_byte
  have second := newline.length.trans sized
  obtain ⟨left, comment⟩ := removeComment_runs (zero_not_mem_line piece) second
  have third := comment.length.trans second
  have again : Runs (strlen BUF 0 0) (textOf piece ++ 0 :: left) (textOf piece).length _ :=
    strlen_runs (stringAt_intro [] (zero_not_mem_textOf piece) left) third le_rfl
  refine ⟨left, third, ?_, fun value after runs => ?_⟩
  · rw [loadLine, allInside_bind length, allInside_bind newline, allInside_bind comment]
    exact allInside_bind again
  · exact length.bind (newline.bind (comment.bind (again.bind runs)))

theorem cString_ne_nil {piece : List Byte} (some_byte : piece ≠ []) :
    cString piece ≠ [] ↔ piece.head? ≠ some 0 := by
  obtain ⟨byte, piece, rfl⟩ := List.exists_cons_of_ne_nil some_byte
  rw [cString, List.head?_cons, List.takeWhile_cons]
  by_cases zero : byte = 0 <;> simp [zero]

variable {piece : List Byte}

/-- The body of the loop does with a clean line what the reader does with it. -/
theorem loadLine_runs (sized : (piece ++ 0 :: rest).length = BUF) (some_byte : piece ≠ [])
    (map : ConfigMap) (clean : Clean piece) : ∃ after,
    Runs (loadLine map) (piece ++ 0 :: rest) (ConfigFileReader.loadLine piece map) after := by
  obtain ⟨more, size, -, runs⟩ :=
    loadLine_steps sized ((cString_ne_nil some_byte).mpr clean.1) map
  have read : ConfigFileReader.loadLine piece map =
      if textOf piece = [] then map else ConfigFileReader.parseLine (textOf piece) map := rfl
  rw [read]
  by_cases empty : textOf piece = []
  · refine ⟨textOf piece ++ 0 :: more, runs _ _ ?_⟩
    rw [if_pos empty, if_pos (List.length_eq_zero_iff.mpr empty)]
    exact runs_pure _ _
  · obtain ⟨after, parsed⟩ := parseLine_runs (zero_not_mem_textOf piece) size map clean.2
    refine ⟨after, runs _ _ ?_⟩
    rw [if_neg empty, if_neg (List.length_pos_iff.mpr empty).ne']
    exact parsed

theorem loadLine_leaves (sized : (piece ++ 0 :: rest).length = BUF) (some_byte : piece ≠ [])
    (map : ConfigMap) (unclean : ¬Clean piece) :
    ¬(loadLine map).AllInside (piece ++ 0 :: rest) := by
  intro inside
  by_cases begins : piece.head? = some 0
  · have empty : cString piece = [] := by
      by_contra some_left
      exact (cString_ne_nil some_byte).mp some_left begins
    obtain ⟨more, split⟩ := cString_split piece rest
    rw [split, empty] at sized inside
    have length : Runs (strlen BUF 0 0) ([] ++ 0 :: more) 0 ([] ++ 0 :: more) :=
      strlen_runs (stringAt_intro [] List.not_mem_nil more) sized le_rfl
    rw [loadLine, allInside_bind length] at inside
    exact read_before (by decide) _ (allInside_first inside)
  · have goes_on : ¬SidesStop (textOf piece) := fun stops => unclean ⟨begins, stops⟩
    have some_text : textOf piece ≠ [] := by
      intro empty
      apply goes_on
      rw [empty]
      exact fun present => absurd present List.not_mem_nil
    obtain ⟨more, size, steps, -⟩ :=
      loadLine_steps sized ((cString_ne_nil some_byte).mpr begins) map
    rw [steps, if_neg (List.length_pos_iff.mpr some_text).ne'] at inside
    exact parseLine_leaves (zero_not_mem_textOf piece) size map goes_on inside

end Line

/-! ### The loop -/

section Loop
variable {file rest piece buf : List Byte} {map : ConfigMap}

/-- A call of `fgets` reads some bytes, and leaves one place for the terminator. -/
theorem fgets_piece (read : fgets BUF file = some (piece, rest)) :
    piece ≠ [] ∧ piece.length + 1 ≤ BUF ∧ piece ++ rest = file := by
  have room : ∀ (room : Nat) (file : List Byte), (fgetsLoop room file).1.length ≤ room ∧
      (fgetsLoop room file).1 ++ (fgetsLoop room file).2 = file := by
    intro room file
    induction file generalizing room with
    | nil => cases room <;> exact ⟨Nat.zero_le _, rfl⟩
    | cons byte file ih =>
      cases room with
      | zero => exact ⟨le_rfl, rfl⟩
      | succ room =>
        rw [fgetsLoop]
        split_ifs
        · exact ⟨Nat.succ_le_succ (Nat.zero_le _), rfl⟩
        · exact ⟨Nat.succ_le_succ (ih room).1, congrArg (byte :: ·) (ih room).2⟩
  have shorter := fgets_shorter read
  rw [fgets] at read
  split_ifs at read
  have fits := room (BUF - 1) file
  rw [Option.some.inj read] at fits
  refine ⟨?_, Nat.succ_le_of_lt (Nat.lt_of_le_of_lt fits.1 (by decide)), fits.2⟩
  rintro rfl
  exact absurd (congrArg List.length fits.2) shorter.ne

/-- The lines of `fgets` are the file. -/
theorem pieces_flatten {calls : Nat} (enough : file.length < calls) :
    (pieces calls file).flatten = file := by
  induction calls generalizing file with
  | zero => exact absurd enough (Nat.not_lt_zero _)
  | succ calls ih =>
    rw [pieces]
    cases read : fgets BUF file with
    | none =>
      rw [fgets] at read
      split_ifs at read with empty
      exact empty.symm
    | some both =>
      have shorter := fgets_shorter read
      rw [List.flatten_cons, ih (by omega)]
      exact (fgets_piece read).2.2

/-- What a call of `fgets` stores. -/
theorem store_runs (sized : buf.length = BUF) (fits : piece.length + 1 ≤ BUF) :
    ∃ more, Runs (storeAll 0 0 (piece ++ [0])) buf () (piece ++ 0 :: more) := by
  have stored : Runs (storeAll 0 0 (piece ++ [0]))
      ([] ++ (buf.take (piece.length + 1) ++ buf.drop (piece.length + 1))) ()
      ([] ++ (piece ++ [0] ++ buf.drop (piece.length + 1))) := by
    apply @storeAll_runs [] _ 0
    · exact le_rfl
    rw [List.length_take, sized, Nat.min_eq_left fits, List.length_append, List.length_singleton]
  rw [List.nil_append, List.nil_append, List.take_append_drop, List.append_assoc] at stored
  exact ⟨_, stored⟩

/-- The loop stays inside exactly as long as the lines are clean. -/
theorem loadLoop_allInside_iff (calls : Nat) (sized : buf.length = BUF) :
    (loadLoop calls file map).AllInside buf ↔ ∀ piece ∈ pieces calls file, Clean piece := by
  induction calls generalizing file map buf with
  | zero =>
    exact iff_of_true (runs_pure _ _).inside fun piece member => absurd member List.not_mem_nil
  | succ calls ih =>
    rw [loadLoop, pieces]
    cases read : fgets BUF file with
    | none =>
      exact iff_of_true (runs_pure _ _).inside fun piece member => absurd member List.not_mem_nil
    | some both =>
      obtain ⟨piece, rest⟩ := both
      obtain ⟨some_byte, fits, -⟩ := fgets_piece read
      obtain ⟨more, stored⟩ := store_runs sized fits
      have size := stored.length.trans sized
      rw [allInside_bind stored, List.forall_mem_cons]
      by_cases clean : Clean piece
      · obtain ⟨after, ran⟩ := loadLine_runs size some_byte map clean
        rw [allInside_bind ran, ih (ran.length.trans size)]
        exact (and_iff_right clean).symm
      · refine iff_of_false (fun inside => ?_) fun all => clean all.1
        exact loadLine_leaves size some_byte map clean (allInside_first inside)

/-- With clean lines the loop on the buffer leaves the map of the reader. -/
theorem loadLoop_runs (calls : Nat) (sized : buf.length = BUF)
    (clean : ∀ piece ∈ pieces calls file, Clean piece) : ∃ after,
    Runs (loadLoop calls file map) buf (ConfigFileReader.loadLoop calls file map) after := by
  induction calls generalizing file map buf with
  | zero => exact ⟨buf, runs_pure _ _⟩
  | succ calls ih =>
    rw [pieces] at clean
    rw [loadLoop, ConfigFileReader.loadLoop, ← BUF]
    cases read : fgets BUF file with
    | none => exact ⟨buf, runs_pure _ _⟩
    | some both =>
      obtain ⟨piece, rest⟩ := both
      obtain ⟨some_byte, fits, -⟩ := fgets_piece read
      obtain ⟨more, stored⟩ := store_runs sized fits
      have size := stored.length.trans sized
      rw [read, List.forall_mem_cons] at clean
      obtain ⟨mid, ran⟩ := loadLine_runs size some_byte map clean.1
      obtain ⟨after, runs⟩ := ih (ran.length.trans size) clean.2
      exact ⟨after, stored.bind (ran.bind runs)⟩

/-- `_LoadFile` stays in its buffer, and its functions in their strings, if and only if no line
begins with a NUL and no side of a `=` is a blank text with a byte that only the second loop of
`_TrimSpace` passes by. -/
theorem load_inside_iff (file : List Byte) (map : ConfigMap) (buf : List Byte)
    (sized : buf.length = BUF) :
    (pieces (file.length + 1) file).flatten = file ∧
    ((loadLoop (file.length + 1) file map).AllInside buf ↔
      ∀ piece ∈ pieces (file.length + 1) file, Clean piece) :=
  ⟨pieces_flatten (Nat.lt_succ_self _), loadLoop_allInside_iff _ sized⟩

/-- The key `a` of the line `a=b` with blanks around both. -/
theorem load_inside_blanks : (loadLoop 8 [SP, 0x61, HT, EQ, SP, 0x62, CR] fun _ => none).AllInside
    (List.replicate BUF 0) := by
  have whole : pieces 8 [SP, 0x61, HT, EQ, SP, 0x62, CR] = [[SP, 0x61, HT, EQ, SP, 0x62, CR]] := by
    decide
  apply (load_inside_iff [SP, 0x61, HT, EQ, SP, 0x62, CR] _ _ List.length_replicate).2.mpr
  change ∀ piece ∈ pieces 8 _, Clean piece
  rw [whole, List.forall_mem_singleton]
  refine ⟨by decide, fun _ => ⟨?_, ?_⟩⟩
  · exact fun blank => absurd (blank 0x61 (by decide)) (by decide)
  · exact fun blank => absurd (blank 0x62 (by decide)) (by decide)

/-- A key of one carriage return, and a line that begins with a NUL: the byte in front of the
buffer is read. A value of one carriage return: the byte in front of the value is. -/
theorem load_reads_before :
    let buf := List.replicate BUF (0 : Byte)
    let load := fun file => loadLoop (file.length + 1) file fun _ => none
    (¬(load [CR, EQ, 0x61, LF]).AllInside buf ∧ ⟨0, -1⟩ ∈ (load [CR, EQ, 0x61, LF] buf).accesses) ∧
    (¬(load [0, LF]).AllInside buf ∧ ⟨0, -1⟩ ∈ (load [0, LF] buf).accesses) ∧
    ¬(load [0x61, EQ, CR, LF]).AllInside buf ∧ ⟨2, 1⟩ ∈ (load [0x61, EQ, CR, LF] buf).accesses := by
  decide +kernel

end Loop

end SNFrame.Base.ConfigBounds
