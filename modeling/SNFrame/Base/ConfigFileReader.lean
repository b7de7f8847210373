import Mathlib.Data.List.DropRight
import Mathlib.Logic.Function.Basic
import SNFrame.Library.Octet

/-! The class CConfigFileReader. A C string is the list of its bytes, and what a function cuts in
place it passes on. -/

namespace SNFrame.Base.ConfigFileReader
open Library.Octet

def HT : Byte := 0x09
def LF : Byte := 0x0a
def CR : Byte := 0x0d
def SP : Byte := 0x20
def HASH : Byte := 0x23
def EQ : Byte := 0x3d

/-- The map `m_config_map`. -/
abbrev ConfigMap := List Byte → Option (List Byte)

/-- `map::insert`, which leaves a key that is there as it is. -/
def ConfigMap.insert (map : ConfigMap) (key value : List Byte) : ConfigMap :=
  if (map key).isSome then map else Function.update map key (some value)

/-- The class CConfigFileReader, less the name of the file. -/
structure ConfigFileReader where
  m_load_ok : Bool
  m_config_map : ConfigMap

/-- What the first loop of `_TrimSpace` passes by. -/
def leading (byte : Byte) : Bool := byte = SP || byte = HT

/-- What its second loop clears. -/
def trailing (byte : Byte) : Bool := byte = SP || byte = HT || byte = CR || byte = LF

/-- `_TrimSpace`. When every byte is cleared the second loop goes on before the string; the answer
is NULL then, whatever it meets there. -/
def trimSpace (name : List Byte) : Option (List Byte) :=
  let start := name.dropWhile leading
  if start = [] then none
  else
    let startPos := name.length - start.length
    let kept := name.rdropWhile trailing
    if kept.length ≤ startPos then none else some (kept.drop startPos)

/-- `_ParseLine`. -/
def parseLine (line : List Byte) (map : ConfigMap) : ConfigMap :=
  if EQ ∈ line then
    let key := trimSpace (line.takeWhile (· ≠ EQ))
    let value := trimSpace ((line.dropWhile (· ≠ EQ)).drop 1)
    match key, value with
    | some key, some value => map.insert key value
    | _, _ => map
  else map

/-- The bytes up to the terminator. -/
def cString (buf : List Byte) : List Byte := buf.takeWhile (· ≠ 0)

/-- The loop of `fgets`, which has room for so many bytes: what it reads, and the rest. -/
def fgetsLoop : Nat → List Byte → List Byte × List Byte
  | 0, file => ([], file)
  | _ + 1, [] => ([], [])
  | room + 1, byte :: file =>
      if byte = LF then ([byte], file)
      else
        let (buf, rest) := fgetsLoop room file
        (byte :: buf, rest)

/-- `fgets` with a buffer of that size, one byte of which is for the terminator. -/
def fgets (size : Nat) (file : List Byte) : Option (List Byte × List Byte) :=
  if file = [] then none else some (fgetsLoop (size - 1) file)

/-- The body of the loop of `_LoadFile` after `fgets`. -/
def loadLine (buf : List Byte) (map : ConfigMap) : ConfigMap :=
  let line := cString buf
  let line := if line.getLast? = some LF then line.dropLast else line
  let line := line.takeWhile (· ≠ HASH)
  if line = [] then map else parseLine line map

/-- The loop of `_LoadFile`, for at most so many calls of `fgets`. -/
def loadLoop : Nat → List Byte → ConfigMap → Option ConfigMap
  | 0, _, _ => none
  | calls + 1, file, map =>
    match fgets 256 file with
    | none => some map
    | some (buf, rest) => loadLoop calls rest (loadLine buf map)

/-- `_LoadFile`, with its success. Each call of `fgets` takes a byte, and the last one none. -/
def loadFile (reader : ConfigFileReader) (file : Option (List Byte)) :
    Option (Bool × ConfigFileReader) :=
  match file with
  | none => some (false, reader)
  | some file => (loadLoop (file.length + 1) file reader.m_config_map).map fun map =>
      (true, ⟨true, map⟩)

/-- `getConfigName`. -/
def getConfigName (reader : ConfigFileReader) (name : List Byte) : Option (List Byte) :=
  if reader.m_load_ok then reader.m_config_map name else none

end SNFrame.Base.ConfigFileReader
