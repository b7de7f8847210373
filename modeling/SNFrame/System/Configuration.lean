import SNFrame.Base.ConfigGrammar
import SNFrame.Core.ServiceTable
import SNFrame.System.Arming
import SNFrame.System.Services

/-! The table of services that the configuration asks for. The value of `service_type` is cut into
its tokens whatever they are; the table is filled where all of them name a service. -/

namespace SNFrame.System.Configuration
open Library.Octet Base.ConfigFileReader Base.ConfigGrammar Core.TcpParse Core.ServiceTable
open Core.NodeMgr hiding step
open Services Supervision

/-! ### The values of the configuration -/

/-- A string that is there, without leading or trailing blanks. -/
structure Trimmed (value : List Byte) : Prop where
  nonempty : value ≠ []
  string : 0 ∉ value
  start : value.head? ≠ some SP
  finish : value.getLast? ≠ some SP

theorem trim_trimmed {text : List Byte} (string : 0 ∉ text) (some_left : trim text ≠ []) :
    Trimmed (trim text) := by
  have part : trim text <+: text.dropWhile leading := List.rdropWhile_prefix ..
  constructor
  · exact some_left
  · intro inside
    exact string ((List.dropWhile_sublist _).subset (part.subset inside))
  · intro blank
    have stopped := List.head_dropWhile_not leading (part.ne_nil some_left)
    rw [List.head?_eq_some_head some_left, part.head some_left, Option.some.injEq] at blank
    rw [blank] at stopped
    exact absurd stopped (by decide)
  · intro blank
    have stopped := List.rdropWhile_last_not trailing _ some_left
    rw [List.getLast?_eq_some_getLast some_left, Option.some.injEq] at blank
    change ¬trailing ((trim text).getLast some_left) = true at stopped
    rw [blank] at stopped
    exact stopped (by decide)

/-- All values of the map are trimmed. -/
def TrimmedValues (map : ConfigMap) : Prop := ∀ key value, map key = some value → Trimmed value

theorem insert_trimmed {map : ConfigMap} {key value : List Byte} (values : TrimmedValues map)
    (trimmed : Trimmed value) : TrimmedValues (map.insert key value) := by
  intro other bound found
  unfold ConfigMap.insert at found
  split_ifs at found
  · exact values other bound found
  · by_cases same : other = key
    · subst same
      rw [Function.update_self, Option.some.injEq] at found
      exact found ▸ trimmed
    · rw [Function.update_of_ne same] at found
      exact values other bound found

theorem parseLine_trimmed {map : ConfigMap} {line : List Byte} (string : 0 ∉ line)
    (values : TrimmedValues map) : TrimmedValues (parseLine line map) := by
  simp only [parseLine, trimSpace_eq]
  split_ifs <;> try exact values
  rename_i keyed valued
  refine insert_trimmed values (trim_trimmed ?_ valued)
  intro inside
  exact string ((List.dropWhile_sublist _).subset (List.mem_of_mem_drop inside))

theorem loadLine_trimmed {map : ConfigMap} (buf : List Byte) (values : TrimmedValues map) :
    TrimmedValues (loadLine buf map) := by
  have string : 0 ∉ cString buf := by
    intro inside
    simpa using List.mem_takeWhile_imp inside
  unfold loadLine
  simp only
  split_ifs
  all_goals first | exact values | skip
  · refine parseLine_trimmed (fun inside => string ?_) values
    exact List.dropLast_subset _ ((List.takeWhile_sublist _).subset inside)
  · exact parseLine_trimmed (fun inside => string ((List.takeWhile_sublist _).subset inside)) values

theorem loadLoop_trimmed {map loaded : ConfigMap} {calls : Nat} {file : List Byte}
    (values : TrimmedValues map) (done : loadLoop calls file map = some loaded) :
    TrimmedValues loaded := by
  induction calls generalizing file map with
  | zero => exact nomatch done
  | succ calls ih =>
    rw [loadLoop] at done
    split at done
    · exact Option.some.inj done ▸ values
    · exact ih (loadLine_trimmed _ values) done

/-- What the reader answers for a key is trimmed, whatever the file. -/
theorem getConfigName_trimmed {file : List Byte} {reader : ConfigFileReader}
    {name value : List Byte}
    (loaded : loadFile ⟨false, fun _ => none⟩ (some file) = some (true, reader))
    (answered : getConfigName reader name = some value) : Trimmed value := by
  obtain ⟨map, done, same⟩ := Option.map_eq_some_iff.mp loaded
  cases same
  have none_before : TrimmedValues fun _ => none := by
    intro key value found
    cases found
  exact loadLoop_trimmed none_before done name value answered

/-! ### The tokens -/

section Tokens
variable {rest : List Byte}

/-- What stands between the spaces of a value. -/
def tokens (value : List Byte) : List (List Byte) := (value.splitOn SP).filter (· ≠ [])

theorem tokens_blank (rest : List Byte) : tokens (SP :: rest) = tokens rest := by
  simp [tokens, List.splitOn_cons_eq_if_modifyHead]

theorem tokens_blanks (count : Nat) (rest : List Byte) :
    tokens (List.replicate count SP ++ rest) = tokens rest := by
  induction count with
  | zero => rfl
  | succ count ih => rw [List.replicate_succ, List.cons_append, tokens_blank, ih]

theorem blank_after_word {blank : Byte} {later : List Byte}
    (after : rest.dropWhile (· ≠ SP) = blank :: later) : blank = SP := by
  have stopped := List.head?_dropWhile_not (fun byte => decide (byte ≠ SP)) rest
  rw [after] at stopped
  simpa using stopped

theorem tokens_word {byte : Byte} (letter : byte ≠ SP) : tokens (byte :: rest) =
    (byte :: rest).takeWhile (· ≠ SP) :: tokens (rest.dropWhile (· ≠ SP)) := by
  have no_blank : SP ∉ (byte :: rest).takeWhile (· ≠ SP) := by
    intro inside
    simpa using List.mem_takeWhile_imp inside
  have word : (byte :: rest).takeWhile (· ≠ SP) ≠ [] := by simp [letter]
  have whole := List.takeWhile_append_dropWhile (p := (· ≠ SP)) (l := byte :: rest)
  have dropped : (byte :: rest).dropWhile (· ≠ SP) = rest.dropWhile (· ≠ SP) := by simp [letter]
  rw [dropped] at whole
  generalize (byte :: rest).takeWhile (· ≠ SP) = token at no_blank word whole ⊢
  cases after : rest.dropWhile (· ≠ SP) with
  | nil =>
    rw [after, List.append_nil] at whole
    rw [← whole, tokens, List.splitOn_eq_singleton no_blank]
    simp [word, tokens]
  | cons blank later =>
    obtain rfl := blank_after_word after
    rw [after] at whole
    rw [← whole, tokens, List.splitOn_append_cons_self_of_not_mem no_blank, tokens_blank,
      List.filter_cons_of_pos (by simpa using word)]
    rfl

/-- Without a blank at its end a value goes on after every blank. -/
theorem word_after_blanks (finish : (SP :: rest).getLast? ≠ some SP) :
    ∃ count byte after, rest = List.replicate count SP ++ byte :: after ∧ byte ≠ SP := by
  induction rest with
  | nil => exact absurd rfl finish
  | cons byte rest ih =>
    by_cases blank : byte = SP
    · subst blank
      obtain ⟨count, byte, after, rfl, letter⟩ := ih (by simpa using finish)
      exact ⟨count + 1, byte, after, rfl, letter⟩
    · exact ⟨0, byte, rest, rfl, blank⟩

theorem last_of_letter {byte : Byte}
    (finish : (byte :: rest).getLast? ≠ some SP) : rest.getLast? ≠ some SP := by
  cases rest with
  | nil => exact nofun
  | cons next rest => simpa using finish

theorem last_of_word {byte : Byte} {count : Nat}
    (finish : (SP :: (List.replicate count SP ++ byte :: rest)).getLast? ≠ some SP) :
    rest.getLast? ≠ some SP := by
  rw [← List.cons_append, List.getLast?_append_of_ne_nil _ (List.cons_ne_nil _ _)] at finish
  exact last_of_letter finish

theorem tokens_pos (finish : (SP :: rest).getLast? ≠ some SP) :
    0 < (tokens (SP :: rest)).length := by
  obtain ⟨count, byte, after, rfl, letter⟩ := word_after_blanks finish
  rw [tokens_blank, tokens_blanks, tokens_word letter]
  exact Nat.succ_pos _

/-- Where no token is left, the present one goes on to the end. -/
theorem takeWhile_of_no_token (finish : rest.getLast? ≠ some SP)
    (none_left : tokens (rest.dropWhile (· ≠ SP)) = []) : rest.takeWhile (· ≠ SP) = rest := by
  have whole := List.takeWhile_append_dropWhile (p := (· ≠ SP)) (l := rest)
  cases after : rest.dropWhile (· ≠ SP) with
  | nil => rwa [after, List.append_nil] at whole
  | cons blank later =>
    obtain rfl := blank_after_word after
    rw [after] at whole none_left
    rw [← whole, List.getLast?_append_of_ne_nil _ (List.cons_ne_nil _ _)] at finish
    exact absurd none_left (List.ne_nil_of_length_pos (tokens_pos finish))

end Tokens

/-! ### The cutting -/

theorem skipBlanks_eq {byte : Byte} (letter : byte ≠ SP) (count : Nat) :
    ∀ (fuel : Nat) (done : List Byte) (here : Byte) (after : List Byte), count < fuel →
      skipBlanks fuel (done ++ here :: (List.replicate count SP ++ byte :: after)) done.length =
        some (done.length + (count + 1)) := by
  induction count with
  | zero =>
    intro fuel done here after enough
    obtain ⟨fuel, rfl⟩ := Nat.exists_eq_add_of_lt enough
    simp [skipBlanks, letter]
  | succ count ih =>
    intro fuel done here after enough
    obtain ⟨fuel, rfl⟩ : ∃ less, fuel = less + 1 := ⟨fuel - 1, by omega⟩
    have next := ih fuel (done ++ [here]) SP after (by omega)
    simp only [List.append_assoc, List.singleton_append, List.length_append,
      List.length_singleton] at next
    simp [skipBlanks, List.replicate_succ, next]
    omega

theorem cString_terminated {text : List Byte} (string : 0 ∉ text) :
    cString (text ++ [0]) = text := by
  have visible : ∀ byte ∈ text, decide (byte ≠ 0) = true := by
    intro byte inside
    rw [decide_eq_true_eq]
    rintro rfl
    exact string inside
  rw [cString, List.takeWhile_append_of_pos visible]
  simp

theorem cString_letter {byte : Byte} {left rest : List Byte} (visible : byte ≠ 0)
    (letter : byte ≠ SP) (head : cString left = rest.takeWhile (· ≠ SP)) :
    cString (byte :: left) = (byte :: rest).takeWhile (· ≠ SP) := by
  rw [cString, List.takeWhile_cons_of_pos (by simpa using visible),
    List.takeWhile_cons_of_pos (by simpa using letter), ← head, cString]

section Iteration
variable {done rest : List Byte} {byte : Byte} {type : List Nat} {fuel : Nat}

/-- A letter is passed by. -/
theorem splitLoop_letter (visible : byte ≠ 0) (letter : byte ≠ SP)
    (room : type.length < MAX_SERVICE_TYPE) :
    splitLoop (fuel + 1) (done ++ byte :: rest) done.length type =
      splitLoop fuel ((done ++ [byte]) ++ rest) (done ++ [byte]).length type := by
  have read : (done ++ byte :: rest)[done.length]? = some byte := by simp
  simp only [splitLoop, read, Option.bind_eq_bind, Option.bind_some, visible, letter, room, ne_eq,
    not_false_iff, and_self, if_true, if_false, List.append_assoc, List.singleton_append,
    List.length_append, List.length_singleton]

/-- A run of blanks is passed by with the letter after it, where a token begins. -/
theorem splitLoop_blank (count : Nat) (letter : byte ≠ SP)
    (room : type.length < MAX_SERVICE_TYPE) :
    splitLoop (fuel + 1) (done ++ SP :: (List.replicate count SP ++ byte :: rest)) done.length
        type =
      splitLoop fuel ((done ++ 0 :: List.replicate count SP ++ [byte]) ++ rest)
        (done ++ 0 :: List.replicate count SP ++ [byte]).length
        (type ++ [done.length + (count + 1)]) := by
  have read : (done ++ SP :: (List.replicate count SP ++ byte :: rest))[done.length]? =
      some SP := by simp
  have cut : (done ++ SP :: (List.replicate count SP ++ byte :: rest)).set done.length 0 =
      done ++ 0 :: (List.replicate count SP ++ byte :: rest) := by simp
  have skipped := skipBlanks_eq letter count
    (done ++ 0 :: (List.replicate count SP ++ byte :: rest)).length done 0 rest (by simp; omega)
  have visible : SP ≠ 0 := by decide
  simp only [splitLoop, read, cut, skipped, Option.bind_eq_bind, Option.bind_some, visible, room,
    ne_eq, not_false_iff, and_self, if_true]
  congr 1 <;> simp; omega

/-- The loop ends when `type` is full. -/
theorem splitLoop_full (full : ¬type.length < MAX_SERVICE_TYPE) :
    splitLoop (fuel + 1) (done ++ byte :: rest) done.length type =
      some (done ++ byte :: rest, type) := by
  simp [splitLoop, full]

/-- From the guard of the loop on: the rest of the present token is left as it is up to a
terminator, and each later token has its pointer. -/
def Splits (fuel : Nat) (rest done : List Byte) (type : List Nat) : Prop :=
  ∃ left more, splitLoop fuel (done ++ (rest ++ [0])) done.length type =
      some (done ++ left, type ++ more) ∧
    cString left = rest.takeWhile (· ≠ SP) ∧
    more.map (fun p => cString ((done ++ left).drop p)) = tokens (rest.dropWhile (· ≠ SP))

theorem dropWhile_letter (letter : byte ≠ SP) (rest : List Byte) :
    (byte :: rest).dropWhile (· ≠ SP) = rest.dropWhile (· ≠ SP) := by
  simp [letter]

theorem splits_letter (visible : byte ≠ 0) (letter : byte ≠ SP)
    (room : type.length < MAX_SERVICE_TYPE) (splits : Splits fuel rest (done ++ [byte]) type) :
    Splits (fuel + 1) (byte :: rest) done type := by
  obtain ⟨left, more, run, head, pointers⟩ := splits
  refine ⟨byte :: left, more, ?_, cString_letter visible letter head, ?_⟩
  · simpa using (splitLoop_letter visible letter room).trans run
  · rw [dropWhile_letter letter, ← pointers, List.append_assoc, List.singleton_append]

theorem splits_blanks (count : Nat) (visible : byte ≠ 0) (letter : byte ≠ SP)
    (room : type.length < MAX_SERVICE_TYPE)
    (splits : Splits fuel rest (done ++ 0 :: List.replicate count SP ++ [byte])
      (type ++ [done.length + (count + 1)])) :
    Splits (fuel + 1) (SP :: (List.replicate count SP ++ byte :: rest)) done type := by
  obtain ⟨left, more, run, head, pointers⟩ := splits
  refine ⟨0 :: (List.replicate count SP ++ byte :: left), (done.length + (count + 1)) :: more,
    ?_, rfl, ?_⟩
  · simpa using (splitLoop_blank count letter room).trans run
  · have place : (done ++ 0 :: List.replicate count SP).length =
        done.length + (count + 1) := by simp
    have start : done ++ 0 :: (List.replicate count SP ++ byte :: left) =
        (done ++ 0 :: List.replicate count SP) ++ byte :: left := by simp
    have passed : done ++ 0 :: (List.replicate count SP ++ byte :: left) =
        done ++ 0 :: List.replicate count SP ++ [byte] ++ left := by simp
    have stops : (SP :: (List.replicate count SP ++ byte :: rest)).dropWhile (· ≠ SP) =
        SP :: (List.replicate count SP ++ byte :: rest) := by simp
    rw [List.map_cons, start, List.drop_left' place, cString_letter visible letter head, ← start,
      passed, pointers, stops, tokens_blank, tokens_blanks, tokens_word letter]

/-- No token is left when `type` is full. -/
theorem splits_full (string : 0 ∉ byte :: rest) (finish : (byte :: rest).getLast? ≠ some SP)
    (none_left : tokens ((byte :: rest).dropWhile (· ≠ SP)) = [])
    (full : ¬type.length < MAX_SERVICE_TYPE) : Splits (fuel + 1) (byte :: rest) done type := by
  refine ⟨byte :: rest ++ [0], [], ?_, ?_, none_left.symm⟩
  · rw [List.append_nil]
    exact splitLoop_full full
  · rw [takeWhile_of_no_token finish none_left, cString_terminated string]

end Iteration

theorem splitLoop_eq (fuel : Nat) : ∀ (rest done : List Byte) (type : List Nat),
    rest.length < fuel → 0 ∉ rest → rest.getLast? ≠ some SP →
    type.length + (tokens (rest.dropWhile (· ≠ SP))).length ≤ MAX_SERVICE_TYPE →
    Splits fuel rest done type := by
  induction fuel with
  | zero =>
    intro rest done type short
    exact absurd short (Nat.not_lt_zero _)
  | succ fuel ih =>
    intro rest done type short string finish few
    cases rest with
    | nil => exact ⟨[0], [], by simp [splitLoop], rfl, by simp [tokens]⟩
    | cons byte rest =>
      have visible : byte ≠ 0 := fun zero => string (zero ▸ List.mem_cons_self)
      have later : 0 ∉ rest := fun inside => string (List.mem_cons_of_mem _ inside)
      rw [List.length_cons, Nat.succ_lt_succ_iff] at short
      by_cases blank : byte = SP
      · subst blank
        obtain ⟨count, byte, after, rfl, letter⟩ := word_after_blanks finish
        simp only [ne_eq, not_true, decide_false, Bool.false_eq_true, not_false_iff,
          List.dropWhile_cons_of_neg] at few
        rw [tokens_blank, tokens_blanks, tokens_word letter, List.length_cons] at few
        simp only [List.length_append, List.length_replicate, List.length_cons] at short
        have nonzero : byte ≠ 0 := fun zero => later (by simp [zero])
        have string' : 0 ∉ after := fun inside =>
          later (List.mem_append_right _ (List.mem_cons_of_mem _ inside))
        apply splits_blanks count nonzero letter (by omega)
        apply ih after _ _ (by omega) string' (last_of_word finish)
        rw [List.length_append, List.length_singleton]
        omega
      · by_cases room : type.length < MAX_SERVICE_TYPE
        · rw [dropWhile_letter blank] at few
          exact splits_letter visible blank room
            (ih rest _ type short later (last_of_letter finish) few)
        · apply splits_full string finish ?_ room
          apply List.length_eq_zero_iff.mp
          omega

/-- The value is cut into its tokens, and nothing past its terminator is read. -/
theorem split_eq {value : List Byte} (trimmed : Trimmed value)
    (few : (tokens value).length ≤ MAX_SERVICE_TYPE) : split value = some (tokens value) := by
  obtain ⟨byte, rest, rfl⟩ := List.exists_cons_of_ne_nil trimmed.nonempty
  have letter : byte ≠ SP := fun blank => trimmed.start (congrArg some blank)
  have same := dropWhile_letter letter rest
  rw [tokens_word letter, List.length_cons] at few
  obtain ⟨left, more, run, head, pointers⟩ := splitLoop_eq _ (byte :: rest) [] [0]
    (Nat.lt_succ_self _) trimmed.string trimmed.finish (by
      rw [same]
      simpa [Nat.add_comm] using few)
  rw [List.nil_append, List.nil_append, List.length_nil] at run
  rw [List.nil_append] at pointers
  rw [split, run, tokens_word letter]
  change some (cString left :: more.map fun p => cString (left.drop p)) = _
  rw [head, pointers, same]

/-! ### The table -/

section Table
variable {ids : ServiceTypes} {visits : Nat → Visit} {sid : BitVec 32}

/-- The token names a service of that type. -/
def names (ids : ServiceTypes) (sid : BitVec 32) (text : List Byte) : Bool :=
  (createServiceNode ids (atoi text)).any (·.setWidth 32 = sid)

/-- The token names one of the services. -/
def Known (ids : ServiceTypes) (text : List Byte) : Prop :=
  (createServiceNode ids (atoi text)).isSome

instance (text : List Byte) : Decidable (Known ids text) :=
  inferInstanceAs (Decidable (_ = true))

/-- The `init` of the service for that token comes to `addNode`. -/
def looksUp (ids : ServiceTypes) (visit : Visit) (text : List Byte) : Bool :=
  createServiceNode ids (atoi text) = some ids.SID_ROUTER && reachesAddNode visit

/-- The slot of a token when the loop has passed it. -/
def slotFor (ids : ServiceTypes) (token : List Byte × Nat) : Slot :=
  match createServiceNode ids (atoi token.1) with
  | none => .indeterminate
  | some sid => .service sid token.2

/-- The table when the slots up to those are done, with so many still to come. -/
def partly (done : List Slot) (left : Nat) : List Slot :=
  done ++ List.replicate left .indeterminate

/-- The tables that the lookups find, from the slots that are done on. -/
def lookupsFrom (ids : ServiceTypes) (visits : Nat → Visit) :
    List Slot → List (List Byte) → List (List Slot)
  | _, [] => []
  | done, text :: rest =>
      let done' := done ++ [slotFor ids (text, done.length)]
      (if looksUp ids (visits done.length) text then [partly done' rest.length] else []) ++
        lookupsFrom ids visits done' rest

/-- One iteration writes the slot of its token, and nothing when the token is unknown. -/
theorem initSlot_eq (done : List Slot) (text : List Byte) (left : Nat)
    (lookups : List (List Slot)) :
    let done' := done ++ [slotFor ids (text, done.length)]
    initSlot ids visits (partly done (left + 1), lookups) (text, done.length) =
      (partly done' left,
        lookups ++ if looksUp ids (visits done.length) text then [partly done' left] else []) := by
  have written (slot : Slot) :
      (partly done (left + 1)).set done.length slot = partly (done ++ [slot]) left := by
    simp [partly, List.replicate_succ]
  cases created : createServiceNode ids (atoi text) with
  | none => simp [initSlot, slotFor, looksUp, created, partly, List.replicate_succ]
  | some sid =>
    simp only [initSlot, slotFor, looksUp, created, written, Option.some.injEq, Bool.and_eq_true,
      decide_eq_true_eq]
    split_ifs <;> simp

theorem foldl_initSlot (ids : ServiceTypes) (visits : Nat → Visit) (rest : List (List Byte)) :
    ∀ (done : List Slot) (lookups : List (List Slot)),
    (rest.zipIdx done.length).foldl (initSlot ids visits) (partly done rest.length, lookups) =
      (done ++ (rest.zipIdx done.length).map (slotFor ids),
        lookups ++ lookupsFrom ids visits done rest) := by
  induction rest with
  | nil => simp [partly, lookupsFrom]
  | cons text rest ih =>
    intro done lookups
    have next := ih (done ++ [slotFor ids (text, done.length)])
    simp only [List.length_append, List.length_singleton] at next
    rw [List.zipIdx_cons, List.foldl_cons, List.length_cons, initSlot_eq, next, lookupsFrom]
    simp

/-- What `init` leaves behind. -/
theorem init_eq {value : List Byte} (trimmed : Trimmed value)
    (few : (tokens value).length ≤ MAX_SERVICE_TYPE) : init ids visits (some value) =
      some ⟨0, tokens value, (tokens value).zipIdx.map (slotFor ids),
        lookupsFrom ids visits [] (tokens value)⟩ := by
  have filled := foldl_initSlot ids visits (tokens value) [] []
  simp only [partly, List.nil_append, List.length_nil] at filled
  simp only [init, split_eq trimmed few, Option.map_some, filled]

theorem slotFor_known {text : List Byte} (known : Known ids text) (place : Nat) :
    ∃ sid, createServiceNode ids (atoi text) = some sid ∧
      slotFor ids (text, place) = .service sid place := by
  obtain ⟨sid, created⟩ := Option.isSome_iff_exists.mp known
  exact ⟨sid, created, by simp [slotFor, created]⟩

theorem slotFor_unknown {text : List Byte} {place : Nat} (unknown : ¬Known ids text) :
    slotFor ids (text, place) = .indeterminate := by
  have created := Option.not_isSome_iff_eq_none.mp unknown
  simp [slotFor, created]

theorem slotFor_ne {text : List Byte} {place : Nat} (known : Known ids text) :
    slotFor ids (text, place) ≠ .indeterminate := by
  obtain ⟨sid, -, filled⟩ := slotFor_known known place
  rw [filled]
  exact nofun

/-- Where every token is known, a lookup finds the first that names a service of that type. -/
theorem getServiceNode_known {type : List (List Byte)} (known : ∀ text ∈ type, Known ids text)
    (sid : BitVec 32) (place : Nat) : getServiceNode ((type.zipIdx place).map (slotFor ids)) sid =
      some ((type.findIdx? (names ids sid)).map (· + place)) := by
  induction type generalizing place with
  | nil => rfl
  | cons text type ih =>
    obtain ⟨made, created, filled⟩ := slotFor_known (known text List.mem_cons_self) place
    have rest := ih (fun text inside => known text (List.mem_cons_of_mem _ inside)) (place + 1)
    rw [List.zipIdx_cons, List.map_cons, filled, getServiceNode, rest, List.findIdx?_cons]
    by_cases named : made.setWidth 32 = sid
    · simp [names, created, named]
    · simp only [names, created, named, Option.any_some, decide_false, Bool.false_eq_true, if_false,
        Option.map_map]
      congr 2
      funext found
      exact (Nat.add_right_comm found 1 place).symm

/-- A lookup that meets the router before it meets an indeterminate slot comes to an end. -/
theorem getServiceNode_ends {done rest : List Slot} {made : BitVec 16} {token : Nat}
    (clean : .indeterminate ∉ done) (inside : .service made token ∈ done) :
    (getServiceNode (done ++ rest) (made.setWidth 32)).isSome := by
  induction done with
  | nil => exact absurd inside List.not_mem_nil
  | cons slot done ih =>
    have later : .indeterminate ∉ done := fun after => clean (List.mem_cons_of_mem _ after)
    cases slot with
    | indeterminate => exact absurd List.mem_cons_self clean
    | null =>
      have further : .service made token ∈ done := by simpa using inside
      exact ih later further
    | service other place =>
      rw [List.cons_append, getServiceNode]
      split_ifs with found
      · rfl
      · rcases List.mem_cons.mp inside with same | further
        · cases same
          exact absurd rfl found
        · exact ih later further

/-- Each slot is NULL or the service created for its token, and a lookup finds the first service
of its type. -/
structure Filled (ids : ServiceTypes) (state : Init) : Prop where
  slots : ∀ place text, state.type[place]? = some text →
    state.m_serviceNode[place]? = some Slot.null ∨
      ∃ sid, createServiceNode ids (atoi text) = some sid ∧
        state.m_serviceNode[place]? = some (Slot.service sid place)
  services : ∀ sid, getServiceNode state.m_serviceNode sid =
    some (state.type.findIdx? (names ids sid))

/-- No slot is indeterminate when the `init` of a service looks one up. -/
def WholeAtLookups (state : Init) : Prop := ∀ table ∈ state.lookups, .indeterminate ∉ table

/-- No such lookup comes upon an indeterminate slot. -/
def ReadAtLookups (ids : ServiceTypes) (state : Init) : Prop :=
  ∀ table ∈ state.lookups, (getServiceNode table (ids.SID_ROUTER.setWidth 32)).isSome

theorem filled_iff (type : List (List Byte)) (lookups : List (List Slot)) :
    Filled ids ⟨0, type, type.zipIdx.map (slotFor ids), lookups⟩ ↔
      ∀ text ∈ type, Known ids text := by
  have slot (place : Nat) (text : List Byte) (listed : type[place]? = some text) :
      (type.zipIdx.map (slotFor ids))[place]? = some (slotFor ids (text, place)) := by
    simp [listed]
  constructor
  · intro filled text inside
    obtain ⟨place, listed⟩ := List.mem_iff_getElem?.mp inside
    by_contra unknown
    have empty := slot place text listed
    rw [slotFor_unknown unknown] at empty
    rcases filled.slots place text listed with null | ⟨sid, -, service⟩
    · exact nomatch empty.symm.trans null
    · exact nomatch empty.symm.trans service
  · intro known
    constructor
    · intro place text listed
      obtain ⟨sid, created, made⟩ := slotFor_known
        (known text (List.mem_of_getElem? listed)) place
      exact .inr ⟨sid, created, (slot place text listed).trans (congrArg some made)⟩
    · intro sid
      simpa using getServiceNode_known known sid 0

theorem partly_clean {done : List Slot} {left : Nat} (clean : .indeterminate ∉ done) :
    .indeterminate ∉ partly done left ↔ left = 0 := by
  cases left with
  | zero => simpa [partly] using clean
  | succ left => simp [partly, List.replicate_succ]

theorem slotFor_clean {done : List Slot} {text : List Byte} (clean : .indeterminate ∉ done)
    (known : Known ids text) :
    .indeterminate ∉ done ++ [slotFor ids (text, done.length)] := by
  simp only [List.mem_append, List.mem_singleton, not_or]
  exact ⟨clean, (slotFor_ne known).symm⟩

/-- A lookup finds the whole table done where its router is the last token. -/
theorem lookupsFrom_whole (visits : Nat → Visit) (rest : List (List Byte)) : ∀ done : List Slot,
    .indeterminate ∉ done → (∀ text ∈ rest, Known ids text) →
    ((∀ table ∈ lookupsFrom ids visits done rest, .indeterminate ∉ table) ↔
      ∀ place text, rest[place]? = some text →
        looksUp ids (visits (done.length + place)) text = true → place + 1 = rest.length) := by
  induction rest with
  | nil => simp [lookupsFrom]
  | cons text rest ih =>
    intro done clean known
    have clean' := slotFor_clean clean (known text List.mem_cons_self)
    have later := ih _ clean' fun text inside => known text (List.mem_cons_of_mem _ inside)
    rw [lookupsFrom, List.forall_mem_append, later]
    constructor
    · rintro ⟨here, after⟩ place token listed looks
      cases place with
      | zero =>
        rw [List.getElem?_cons_zero, Option.some.injEq] at listed
        subst listed
        rw [Nat.add_zero] at looks
        have whole := here _ (by rw [if_pos looks]; exact List.mem_singleton_self _)
        rw [List.length_cons, (partly_clean clean').mp whole]
      | succ place =>
        have further := after place token (by simpa using listed)
          (by simpa [Nat.add_assoc, Nat.add_comm 1] using looks)
        exact congrArg (· + 1) further
    · intro last
      constructor
      · intro table inside
        split_ifs at inside with looks
        · obtain rfl := List.mem_singleton.mp inside
          have final := last 0 text rfl looks
          rw [List.length_cons] at final
          exact (partly_clean clean').mpr (by omega)
        · exact absurd inside List.not_mem_nil
      · intro place token listed looks
        have final := last (place + 1) token (by simpa using listed)
          (by simpa [Nat.add_assoc, Nat.add_comm 1] using looks)
        exact Nat.succ.inj final

/-- Every lookup comes to its own router at the latest. -/
theorem lookupsFrom_read (rest : List (List Byte)) : ∀ done : List Slot,
    .indeterminate ∉ done → (∀ text ∈ rest, Known ids text) →
    ∀ table ∈ lookupsFrom ids visits done rest,
      (getServiceNode table (ids.SID_ROUTER.setWidth 32)).isSome := by
  induction rest with
  | nil => simp [lookupsFrom]
  | cons text rest ih =>
    intro done clean known table inside
    have clean' := slotFor_clean clean (known text List.mem_cons_self)
    rw [lookupsFrom] at inside
    rcases List.mem_append.mp inside with here | later
    · split_ifs at here with looks
      · obtain rfl := List.mem_singleton.mp here
        have router : createServiceNode ids (atoi text) = some ids.SID_ROUTER := by
          simp only [looksUp, Bool.and_eq_true, decide_eq_true_eq] at looks
          exact looks.1
        have made : slotFor ids (text, done.length) = .service ids.SID_ROUTER done.length := by
          simp [slotFor, router]
        apply getServiceNode_ends clean'
        exact List.mem_append_right _ (List.mem_singleton.mpr made.symm)
      · exact absurd here List.not_mem_nil
    · exact ih _ clean' (fun text inside => known text (List.mem_cons_of_mem _ inside)) table later

theorem reachesAddNode_iff {visit : Visit} : reachesAddNode visit = true ↔ Connects visit := by
  simp [reachesAddNode, Connects]

theorem looksUp_iff {visit : Visit} {text : List Byte} : looksUp ids visit text = true ↔
    createServiceNode ids (atoi text) = some ids.SID_ROUTER ∧ Connects visit := by
  simp only [looksUp, Bool.and_eq_true, decide_eq_true_eq, reachesAddNode_iff]

/-- The value is cut into its tokens. The table is whole, also when a service looks another one up
while it is being filled, exactly when every token is known and no router that registers stands
before another token; and when every token is known, no lookup reads a slot that is not written. -/
theorem init_whole_iff (ids : ServiceTypes) (visits : Nat → Visit) {value : List Byte}
    (trimmed : Trimmed value) (few : (tokens value).length ≤ MAX_SERVICE_TYPE) :
    ∃ state, init ids visits (some value) = some state ∧ state.result = 0 ∧
      state.type = tokens value ∧ state.m_serviceNode.length = (tokens value).length ∧
      (Filled ids state ∧ WholeAtLookups state ↔
        (∀ text ∈ tokens value, Known ids text) ∧
        ∀ place text, (tokens value)[place]? = some text →
          createServiceNode ids (atoi text) = some ids.SID_ROUTER → Connects (visits place) →
          place + 1 = (tokens value).length) ∧
      (Filled ids state ∧ ReadAtLookups ids state ↔ ∀ text ∈ tokens value, Known ids text) := by
  refine ⟨_, init_eq trimmed few, rfl, rfl, by simp, ?_, ?_⟩
  · rw [filled_iff]
    refine and_congr_right fun known => ?_
    have whole := lookupsFrom_whole visits (tokens value) [] List.not_mem_nil known
    simp only [List.length_nil, Nat.zero_add, looksUp_iff, and_imp] at whole
    exact whole
  · rw [filled_iff]
    refine and_iff_left_of_imp fun known => ?_
    exact lookupsFrom_read (tokens value) [] List.not_mem_nil known

/-- The services of a table, as the system has them. -/
def servicesOf (table : List Slot) : List ServiceNode :=
  table.filterMap fun
    | .service sid _ => some ⟨sid, []⟩
    | _ => none

/-- With every token known the table is the one that the system starts with. -/
theorem init_start {value : List Byte} (trimmed : Trimmed value)
    (few : (tokens value).length ≤ MAX_SERVICE_TYPE) : ∃ state,
    init ids visits (some value) = some state ∧
      servicesOf state.m_serviceNode = (start ((tokens value).filterMap fun text =>
        createServiceNode ids (atoi text))).services := by
  refine ⟨_, init_eq trimmed few, ?_⟩
  change servicesOf (((tokens value).zipIdx 0).map (slotFor ids)) = _
  generalize tokens value = type
  generalize 0 = place
  induction type generalizing place with
  | nil => rfl
  | cons text type ih =>
    have rest := ih (place + 1)
    cases created : createServiceNode ids (atoi text) with
    | none => simpa [servicesOf, slotFor, created, start] using rest
    | some sid => simpa [servicesOf, slotFor, created, start] using rest

end Table

/-! ### Runs -/

def smallTypes : ServiceTypes := { Arming.smallMessages with SID_CONN := 5 }

/-- `3 1`, the database proxy and the router. -/
def routerLast : List Byte := [0x33, SP, 0x31]

theorem init_whole_iff_two_services : ∃ state,
    init smallTypes (fun _ => Arming.freshFd 5) (some routerLast) = some state ∧
      Filled smallTypes state ∧ WholeAtLookups state := by
  obtain ⟨state, run, -, -, -, whole, -⟩ := init_whole_iff smallTypes (fun _ => Arming.freshFd 5)
    (⟨by decide, by decide, by decide, by decide⟩ : Trimmed routerLast) (by decide)
  refine ⟨state, run, whole.mpr ⟨by decide, ?_⟩⟩
  intro place text listed router _
  have two : tokens routerLast = [[0x33], [0x31]] := by decide
  rw [two] at listed ⊢
  match place with
  | 0 =>
    cases listed
    exact absurd router (by decide)
  | 1 => rfl

/-- `7 3`, of which the first is unknown. -/
def unknownFirst : List Byte := [0x37, SP, 0x33]

theorem unknown_type_indeterminate : ¬∃ state,
    init smallTypes (fun _ => Arming.freshFd 5) (some unknownFirst) = some state ∧
      state.type = tokens unknownFirst ∧ Filled smallTypes state ∧ WholeAtLookups state := by
  have run : init smallTypes (fun _ => Arming.freshFd 5) (some unknownFirst) =
      some ⟨0, [[0x37], [0x33]], [.indeterminate, .service 3 1], []⟩ := by decide +kernel
  rintro ⟨state, done, -, filled, -⟩
  rw [run] at done
  cases done
  exact nomatch filled.services 3

end SNFrame.System.Configuration
