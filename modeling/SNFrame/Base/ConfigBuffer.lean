import SNFrame.Base.ConfigGrammar
import SNFrame.Library.CString

/-! `_LoadFile`, `_ParseLine` and `_TrimSpace` on the buffer that they work in. A string is a place
of the buffer here, and what is cut is overwritten. -/

namespace SNFrame.Base.ConfigBuffer
open Library.Octet Library.Bounds Library.Bounds.Code Library.CString ConfigFileReader ConfigGrammar

/-! ### The code -/

/-- The size of `buf`. -/
def BUF : Nat := 256

/-- The second loop of `_TrimSpace`: it clears backwards from the place before this one, and leaves
`end_pos`. In front of the buffer the run stops. -/
def clearTrailing (name : Nat) : Nat → Code Byte Int
  | 0 => do
      let _ ← read name (-1)
      pure (-1)
  | endPos + 1 => do
      let byte ← read name endPos
      if trailing byte then do
        write name endPos 0
        clearTrailing name endPos
      else pure endPos

/-- The second half of `_TrimSpace`. -/
def trimEnd (name startPos : Nat) : Code Byte (Option Nat) := do
  let length ← strlen BUF name name
  let endPos ← clearTrailing name (name + length)
  let len := endPos - startPos + 1
  pure (if len ≤ 0 then none else some startPos)

/-- `_TrimSpace`. -/
def trimSpace (name : Nat) : Code Byte (Option Nat) := do
  let (startPos, _) ← scan (fun byte => !leading byte) name (BUF - name) name
  let left ← strlen BUF name startPos
  if left = 0 then pure none else trimEnd name startPos

/-- The insertion into `m_config_map`, which copies both strings. -/
def insertPair (map : ConfigMap) : Option Nat → Option Nat → Code Byte ConfigMap
  | some key, some value => do
      let name ← copyString key (BUF - key) key
      let text ← copyString value (BUF - value) value
      pure (map.insert name text)
  | _, _ => pure map

/-- `_ParseLine` from the place of the `=` on. -/
def parsePair (line p : Nat) (map : ConfigMap) : Code Byte ConfigMap := do
  write line p 0
  let key ← trimSpace line
  let value ← trimSpace (p + 1)
  insertPair map key value

/-- `_ParseLine`. -/
def parseLine (line : Nat) (map : ConfigMap) : Code Byte ConfigMap := do
  match ← strchr BUF line line EQ with
  | none => pure map
  | some p => parsePair line p map

/-- The newline at the end, if it is there. -/
def removeNewline (len : Nat) : Code Byte Unit := do
  let last ← read 0 ((len : Int) - 1)
  if last = LF then write 0 ((len : Int) - 1) 0 else pure ()

/-- The text from the first `#` on. -/
def removeComment : Code Byte Unit := do
  match ← strchr BUF 0 0 HASH with
  | some ch => write 0 ch 0
  | none => pure ()

/-- The body of the loop of `_LoadFile` after `fgets`. -/
def loadLine (map : ConfigMap) : Code Byte ConfigMap := do
  let len ← strlen BUF 0 0
  removeNewline len
  removeComment
  let len ← strlen BUF 0 0
  if len = 0 then pure map else parseLine 0 map

/-- The loop of `_LoadFile`, for at most so many calls of `fgets`. -/
def loadLoop : Nat → List Byte → ConfigMap → Code Byte (Option ConfigMap)
  | 0, _, _ => pure none
  | calls + 1, file, map =>
    match fgets BUF file with
    | none => pure (some map)
    | some (piece, rest) => do
        storeAll 0 0 (piece ++ [0])
        let map ← loadLine map
        loadLoop calls rest map

/-! ### Trimming -/

/-- The second loop stops in the text, or is not entered. -/
def Stops (text : List Byte) : Prop :=
  (∀ byte ∈ text, trailing byte = true) → ∀ byte ∈ text, leading byte = true

section Clear
variable {before init cut rest text : List Byte} {last : Byte} {count : Nat}

/-- The second loop clears down to a byte at which it stops. -/
theorem clearTrailing_runs (stop : trailing last = false) (cleared : ∀ byte ∈ cut, trailing byte)
    (counted : count = before.length + init.length + 1 + cut.length) :
    Runs (clearTrailing before.length count) (before ++ (init ++ last :: (cut ++ rest)))
      ((before.length + init.length : Nat) : Int)
      (before ++ (init ++ last :: (List.replicate cut.length 0 ++ rest))) := by
  subst counted
  induction cut using List.reverseRecOn generalizing rest with
  | nil =>
    have shape : before ++ (init ++ last :: rest) = (before ++ init) ++ last :: rest := by simp
    have place : before.length + init.length = (before ++ init).length := by simp
    simp only [List.nil_append, List.length_nil, List.replicate_zero, Nat.add_zero]
    rw [shape, place]
    refine (runs_read (by simp)).bind ?_
    rw [stop, if_neg Bool.false_ne_true]
    exact runs_pure _ _
  | append_singleton cut byte ih =>
    rw [List.forall_mem_append] at cleared
    have shape (cell : Byte) : before ++ (init ++ last :: (cut ++ cell :: rest)) =
        (before ++ (init ++ last :: cut)) ++ cell :: rest := by simp
    have place : before.length + init.length + 1 + cut.length =
        (before ++ (init ++ last :: cut)).length := by
      simp only [List.length_append, List.length_cons]
      omega
    have zeros : List.replicate (cut ++ [byte]).length 0 ++ rest =
        List.replicate cut.length 0 ++ (0 : Byte) :: rest := by
      rw [List.length_append, List.length_singleton, List.replicate_succ', List.append_assoc]
      rfl
    have later := @ih (0 :: rest) cleared.1
    rw [zeros, List.length_append, List.length_singleton, ← Nat.add_assoc, List.append_assoc,
      List.singleton_append, shape byte]
    rw [shape 0] at later
    rw [place] at later ⊢
    refine (runs_read (by simp)).bind ?_
    rw [cleared.2 byte (List.mem_singleton.mpr rfl), if_pos rfl]
    exact (runs_write (by simp)).bind later

/-- A text that is cleared altogether is left backwards. -/
theorem clearTrailing_leaves (cleared : ∀ byte ∈ text, trailing byte = true)
    (counted : count = before.length + text.length) :
    ¬(clearTrailing before.length count).AllInside (before ++ (text ++ rest)) := by
  subst counted
  induction text using List.reverseRecOn generalizing rest with
  | nil =>
    rw [List.length_nil, Nat.add_zero]
    cases place : before.length with
    | zero => exact read_before (by decide) _
    | succ place => exact read_before (by omega) _
  | append_singleton text byte ih =>
    rw [List.forall_mem_append] at cleared
    have shape (cell : Byte) : before ++ (text ++ cell :: rest) =
        (before ++ text) ++ cell :: rest := by simp
    have place : before.length + text.length = (before ++ text).length := by simp
    have later := @ih (0 :: rest) cleared.1
    rw [List.length_append, List.length_singleton, ← Nat.add_assoc, List.append_assoc,
      List.singleton_append, shape byte]
    rw [shape 0] at later
    rw [place] at later ⊢
    intro inside
    apply later
    rw [clearTrailing, allInside_bind (runs_read (by simp)),
      cleared.2 byte (List.mem_singleton.mpr rfl), if_pos rfl,
      allInside_bind (runs_write (by simp))] at inside
    exact inside

end Clear

section Trim
variable {before text rest : List Byte}

/-- The first loop stops after the bytes that it passes by. -/
theorem forward_runs (plain : 0 ∉ text) (sized : (before ++ (text ++ 0 :: rest)).length = BUF) :
    ∃ byte, Runs
      (scan (fun byte => !leading byte) before.length (BUF - before.length) before.length)
      (before ++ (text ++ 0 :: rest)) (before.length + (text.takeWhile leading).length, byte)
      (before ++ (text ++ 0 :: rest)) := by
  obtain ⟨byte, more, shape, stop⟩ : ∃ byte more,
      text.dropWhile leading ++ 0 :: rest = byte :: more ∧ leading byte = false := by
    have first := List.head?_dropWhile_not leading text
    cases start : text.dropWhile leading with
    | nil => exact ⟨0, rest, rfl, by decide⟩
    | cons byte more =>
      rw [start] at first
      exact ⟨byte, more ++ 0 :: rest, rfl, by simpa using first⟩
  have whole : text ++ 0 :: rest = text.takeWhile leading ++ byte :: more := by
    rw [← shape, ← List.append_assoc, List.takeWhile_append_dropWhile]
  have room := (stringAt_intro before plain rest).room.1
  have shorter := (List.takeWhile_prefix leading (l := text)).length_le
  rw [sized] at room
  refine ⟨byte, ?_⟩
  rw [whole]
  apply scan_runs le_rfl
  · intro passed member
    rw [List.mem_takeWhile_imp member, Bool.not_true]
  · rw [stop, Bool.not_false]
  · exact shorter.trans room

theorem start_string (plain : 0 ∉ text) : StringAt (before ++ (text ++ 0 :: rest))
    (before.length + (text.takeWhile leading).length) (text.dropWhile leading) := by
  have held := stringAt_intro before plain rest
  apply StringAt.tail
  rw [List.takeWhile_append_dropWhile]
  exact held

/-- A pointer to a string of the buffer, or NULL. -/
def Points (buf : List Byte) : Option Nat → Option (List Byte) → Prop
  | none, none => True
  | some place, some text => StringAt buf place text
  | _, _ => False

theorem Points.append {buf : List Byte} {ptr : Option Nat} {answer : Option (List Byte)}
    (points : Points buf ptr answer) (more : List Byte) : Points (buf ++ more) ptr answer := by
  cases ptr with
  | none =>
    cases answer with
    | none => trivial
    | some text => exact points
  | some place =>
    cases answer with
    | none => exact points
    | some text => exact StringAt.append points more

/-- A text with a byte that is kept, by the last of these. -/
theorem kept_split (kept : text.rdropWhile trailing ≠ []) : ∃ init last cut,
    text.rdropWhile trailing = init ++ [last] ∧ text = init ++ last :: cut ∧
      trailing last = false ∧ ∀ byte ∈ cut, trailing byte = true := by
  have parted := (List.dropLast_concat_getLast kept).symm
  refine ⟨_, _, text.rtakeWhile trailing, parted, ?_, ?_, ?_⟩
  · rw [List.append_cons, ← parted, List.rdropWhile_append_rtakeWhile]
  · exact Bool.eq_false_iff.mpr (List.rdropWhile_last_not trailing text kept)
  · exact fun byte member => List.mem_rtakeWhile_imp member

theorem trimEnd_runs (plain : 0 ∉ text) (sized : (before ++ (text ++ 0 :: rest)).length = BUF)
    (some_left : trim text ≠ []) : ∃ cleared, cleared.length = text.length ∧
      Runs (trimEnd before.length (before.length + (text.takeWhile leading).length))
        (before ++ (text ++ 0 :: rest))
        (some (before.length + (text.takeWhile leading).length))
        (before ++ (cleared ++ 0 :: rest)) ∧
      StringAt (before ++ (cleared ++ [0]))
        (before.length + (text.takeWhile leading).length) (trim text) := by
  have kept := rdropWhile_text text
  rw [if_neg some_left] at kept
  have some_kept : text.rdropWhile trailing ≠ [] := by
    rw [kept]
    exact List.append_ne_nil_of_right_ne_nil _ some_left
  obtain ⟨init, last, cut, ends, split, stop, cleared⟩ := kept_split some_kept
  have zeros : List.replicate cut.length 0 ++ [(0 : Byte)] = 0 :: List.replicate cut.length 0 := by
    rw [← List.replicate_succ', List.replicate_succ]
  have counted : text.length = init.length + 1 + cut.length := by
    rw [split, List.length_append, List.length_cons]
    omega
  have ended : init ++ [last] = text.takeWhile leading ++ trim text := ends.symm.trans kept
  have longer := congrArg List.length ended
  rw [List.length_append, List.length_append, List.length_singleton] at longer
  refine ⟨init ++ last :: List.replicate cut.length 0, ?_, ?_, ?_⟩
  · rw [List.length_append, List.length_cons, List.length_replicate, counted]
    omega
  · have ran := @clearTrailing_runs before init cut (0 :: rest) last
      (before.length + text.length) stop cleared (by omega)
    have shape (end_of : List Byte) : init ++ last :: (end_of ++ 0 :: rest) =
        init ++ last :: end_of ++ 0 :: rest := by simp
    rw [shape, shape, ← split] at ran
    have some_len : ¬((before.length + init.length : Nat) : Int) -
        ((before.length + (text.takeWhile leading).length : Nat) : Int) + 1 ≤ 0 := by
      have := List.length_pos_iff.mpr some_left
      omega
    refine (strlen_runs (stringAt_intro before plain rest) sized le_rfl).bind (ran.bind ?_)
    change Runs (pure (if _ then none else some _)) _ _ _
    rw [if_neg some_len]
    exact runs_pure _ _
  · refine ⟨before ++ text.takeWhile leading, List.replicate cut.length 0, ?_, ?_, ?_⟩
    · rw [List.append_cons init, ended]
      simp only [List.append_assoc, zeros]
    · rw [List.length_append]
    · intro member
      apply plain
      rw [split, List.append_cons, ended]
      exact List.mem_append_left _ (List.mem_append_right _ member)

/-- A string for which the second loop stops is trimmed in place. -/
theorem trimSpace_runs (plain : 0 ∉ text) (sized : (before ++ (text ++ 0 :: rest)).length = BUF)
    (stops : Stops text) : ∃ ptr cleared, cleared.length = text.length ∧
      Runs (trimSpace before.length) (before ++ (text ++ 0 :: rest)) ptr
        (before ++ (cleared ++ 0 :: rest)) ∧
      Points (before ++ (cleared ++ [0])) ptr (ConfigFileReader.trimSpace text) := by
  obtain ⟨byte, forward⟩ := forward_runs plain sized
  have left := strlen_runs (start_string plain) sized (Nat.le_add_right before.length _)
  by_cases blank : text.dropWhile leading = []
  · refine ⟨none, text, rfl, forward.bind (left.bind ?_), ?_⟩
    · rw [blank, List.length_nil, if_pos rfl]
      exact runs_pure _ _
    · simp only [ConfigFileReader.trimSpace, blank, if_true]
      trivial
  · have some_left : trim text ≠ [] := by
      intro nothing
      have gone := rdropWhile_text text
      rw [if_pos nothing, List.rdropWhile_eq_nil_iff] at gone
      exact blank (List.dropWhile_eq_nil_iff.mpr (stops gone))
    obtain ⟨cleared, length, ran, held⟩ := trimEnd_runs plain sized some_left
    refine ⟨some (before.length + (text.takeWhile leading).length), cleared, length,
      forward.bind (left.bind ?_), ?_⟩
    · rw [if_neg (List.length_pos_iff.mpr blank).ne']
      exact ran
    · rw [trimSpace_eq, if_neg some_left]
      exact held

/-- For any other string the second loop reads before it. -/
theorem trimSpace_leaves (plain : 0 ∉ text) (sized : (before ++ (text ++ 0 :: rest)).length = BUF)
    (goes_on : ¬Stops text) :
    ¬(trimSpace before.length).AllInside (before ++ (text ++ 0 :: rest)) := by
  rw [Stops, Classical.not_imp] at goes_on
  obtain ⟨byte, forward⟩ := forward_runs plain sized
  have left := strlen_runs (start_string plain) sized (Nat.le_add_right before.length _)
  have length := strlen_runs (stringAt_intro before plain rest) sized le_rfl
  have some_left : text.dropWhile leading ≠ [] := by
    intro blank
    exact goes_on.2 (List.dropWhile_eq_nil_iff.mp blank)
  intro inside
  rw [trimSpace, allInside_bind forward, allInside_bind left,
    if_neg (List.length_pos_iff.mpr some_left).ne', trimEnd, allInside_bind length] at inside
  exact clearTrailing_leaves goes_on.1 rfl (allInside_first inside)

end Trim

end SNFrame.Base.ConfigBuffer
