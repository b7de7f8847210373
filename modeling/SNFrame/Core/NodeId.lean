import SNFrame.Base.ConfigFileReader
import SNFrame.Library.CString
import SNFrame.Library.Decimal

/-! `RouterNode::set_id`: the id that the router has given to this node goes into the configuration
as a text, by way of a buffer on the stack. -/

namespace SNFrame.Core.NodeId
open Library.Octet Library.Bounds Library.Bounds.Code Library.CString Library.Decimal
open Base.ConfigFileReader

/-! ### The code -/

/-- The size of `id`. -/
def ID : Nat := 10

/-- The key `node_id`. -/
def NODE_ID : List Byte := [0x6e, 0x6f, 0x64, 0x65, 0x5f, 0x69, 0x64]

/-- The map with a value: an assignment where the key is found, else an insertion. -/
def assign (map : ConfigMap) (name text : List Byte) : ConfigMap :=
  if (map name).isSome then Function.update map name (some text) else map.insert name text

theorem assign_eq (map : ConfigMap) (name text : List Byte) :
    assign map name text = Function.update map name (some text) := by
  unfold assign
  split_ifs with known
  · rfl
  · exact if_neg known

@[simp] theorem assign_self (map : ConfigMap) (name text : List Byte) :
    assign map name text name = some text := by rw [assign_eq, Function.update_self]

@[simp] theorem assign_other {name key : List Byte} (other : key ≠ name) (map : ConfigMap)
    (text : List Byte) : assign map name text key = map key := by
  rw [assign_eq, Function.update_of_ne other]

/-- `setConfigValue`, with a value that is a string in the buffer. -/
def setConfigValue (reader : ConfigFileReader) (name : List Byte) (value : Nat) :
    Code Byte (Int × ConfigFileReader) :=
  if reader.m_load_ok then do
    let text ← copyString value (ID - value) value
    pure (0, { reader with m_config_map := assign reader.m_config_map name text })
  else pure (-1, reader)

/-- `sprintf(id, "%d", nid)`, which prints the bits of the id as those of an `int`. -/
def sprintf (nid : BitVec 32) : Code Byte Unit := storeAll 0 0 (signed nid.toInt ++ [0])

/-- `set_id`: the new `m_id` and the configuration. -/
def setId (reader : ConfigFileReader) (nid : BitVec 32) :
    Code Byte (BitVec 32 × ConfigFileReader) := do
  sprintf nid
  let (_, reader) ← setConfigValue reader NODE_ID 0
  pure (nid, reader)

/-- The buffer `id` before the call of `sprintf`. -/
def cleared : List Byte := List.replicate ID 0

/-! ### What it stores -/

section Stores
variable {reader : ConfigFileReader} {nid : BitVec 32}

/-- The id is in the configuration as an unsigned number, and every other entry is as before. -/
def Stored (nid : BitVec 32) (reader after : ConfigFileReader) : Prop :=
  (∃ text, after.m_config_map NODE_ID = some text ∧ unsigned text = some nid.toNat) ∧
    ∀ key, key ≠ NODE_ID → after.m_config_map key = reader.m_config_map key

theorem setConfigValue_runs {buf text name : List Byte} {place : Nat}
    (loaded : reader.m_load_ok = true) (held : StringAt buf place text) (sized : buf.length = ID) :
    Runs (setConfigValue reader name place) buf
      (0, { reader with m_config_map := assign reader.m_config_map name text }) buf := by
  have copied := copyString_runs held le_rfl (sized ▸ held.room.1)
  rw [setConfigValue, if_pos loaded]
  exact copied.bind (runs_pure _ _)

/-- The text has room in the buffer, with its terminator. -/
def Fits (nid : BitVec 32) : Prop := (signed nid.toInt).length + 1 ≤ ID
  deriving Decidable

theorem fits_iff : Fits nid ↔ -(10 ^ 8 : Nat) < nid.toInt ∧ nid.toInt < (10 ^ 9 : Nat) := by
  rw [Fits, ID, Nat.succ_le_succ_iff]
  exact signed_length_le_iff (by decide) _

theorem setId_runs (loaded : reader.m_load_ok = true) (fits : Fits nid) : ∃ buf,
    Runs (setId reader nid) cleared
      (nid, { reader with
        m_config_map := assign reader.m_config_map NODE_ID (signed nid.toInt) }) buf := by
  have length : (signed nid.toInt ++ [(0 : Byte)]).length ≤ cleared.length := by
    rw [List.length_append, cleared, List.length_replicate]
    exact fits
  have printed : Runs (sprintf nid)
      ([] ++ (cleared.take (signed nid.toInt ++ [(0 : Byte)]).length ++
        cleared.drop (signed nid.toInt ++ [(0 : Byte)]).length)) ()
      ([] ++ (signed nid.toInt ++ [0] ++
        cleared.drop (signed nid.toInt ++ [(0 : Byte)]).length)) := by
    apply @storeAll_runs [] _ 0
    · exact le_rfl
    · rw [List.length_take, Nat.min_eq_left length]
  rw [List.take_append_drop, List.append_assoc] at printed
  have held := stringAt_intro [] (zero_not_mem_signed nid.toInt)
    (cleared.drop (signed nid.toInt ++ [(0 : Byte)]).length)
  have sized := printed.length.trans (List.length_replicate (n := ID) (a := (0 : Byte)))
  exact ⟨_, printed.bind ((setConfigValue_runs loaded held sized).bind (runs_pure _ _))⟩

theorem setId_past (longer : ¬Fits nid) : ¬(setId reader nid).AllInside cleared := by
  intro inside
  have past : cleared.length < (signed nid.toInt ++ [(0 : Byte)]).length := by
    rw [List.length_append, cleared, List.length_replicate]
    exact Nat.lt_of_not_le longer
  exact @storeAll_past [] 0 cleared _ le_rfl past (allInside_first inside)

theorem stored_iff : Stored nid reader
    { reader with m_config_map := assign reader.m_config_map NODE_ID (signed nid.toInt) } ↔
      nid.toInt = nid.toNat := by
  rw [← unsigned_signed_iff]
  constructor
  · rintro ⟨⟨text, found, value⟩, -⟩
    simp only [assign_self, Option.some.injEq] at found
    rw [found]
    exact value
  · intro value
    exact ⟨⟨_, assign_self .., value⟩, fun key other => assign_other other ..⟩

/-- The id is stored, by writes inside the buffer, if and only if it has at most nine digits: ten
leave no room for the terminator, and from 2^31 on the text has a sign. -/
theorem setId_stores_iff (reader : ConfigFileReader) (nid : BitVec 32)
    (loaded : reader.m_load_ok = true) :
    (∃ after buf, Runs (setId reader nid) cleared (nid, after) buf ∧ Stored nid reader after) ↔
      nid.toNat < 10 ^ 9 := by
  have small : Fits nid ∧ nid.toInt = nid.toNat ↔ nid.toNat < 10 ^ 9 := by
    rw [fits_iff, BitVec.toInt_eq_toNat_cond]
    split_ifs <;> omega
  rw [← small]
  constructor
  · rintro ⟨after, buf, ran, stored⟩
    have fits : Fits nid := by
      by_contra longer
      exact setId_past longer ran.inside
    obtain ⟨other, runs⟩ := setId_runs loaded fits
    have same := ran.ends.symm.trans runs.ends
    simp only [Option.some.injEq, Prod.mk.injEq, true_and] at same
    rw [same.1, stored_iff] at stored
    exact ⟨fits, stored⟩
  · rintro ⟨fits, unsigned⟩
    obtain ⟨buf, runs⟩ := setId_runs loaded fits
    exact ⟨_, buf, runs, stored_iff.mpr unsigned⟩

/-- The id 7 is stored as `7`. -/
theorem setId_stores_seven : ∃ after buf,
    Runs (setId ⟨true, fun _ => none⟩ 7) cleared (7, after) buf ∧
      Stored 7 ⟨true, fun _ => none⟩ after :=
  (setId_stores_iff ⟨true, fun _ => none⟩ 7 rfl).mpr (by decide)

/-- For the id 1000000000 the terminator is written behind the buffer, and the id 4294967295 is
stored as `-1`. -/
theorem setId_misses :
    ¬(setId ⟨true, fun _ => none⟩ 1000000000).AllInside cleared ∧
      ⟨0, 10⟩ ∈ (setId ⟨true, fun _ => none⟩ 1000000000 cleared).accesses ∧
      (setId ⟨true, fun _ => none⟩ 4294967295 cleared).result.map
        (fun done => done.1.2.m_config_map NODE_ID) = some (some [MINUS, 0x31]) := by
  decide +kernel

end Stores

end SNFrame.Core.NodeId
