import SNFrame.Base.ConfigFileReader
import SNFrame.Core.NodeMgr

/-! `NodeMgr::init`: the value of `service_type` is cut into its tokens in place, and a table from
`malloc` receives the services that they name. A pointer into the value is its offset, and a read
past the terminator has no answer. -/

namespace SNFrame.Core.ServiceTable
open Library.Octet Base.ConfigFileReader TcpParse NodeMgr

/-- The service ids that `CreateServiceNode` knows. -/
structure ServiceTypes extends ServiceID where
  SID_CONN : BitVec 16

def MAX_SERVICE_TYPE : Nat := 100

/-! ### The tokens -/

/-- `while (*(++p) == ' ');` -/
def skipBlanks : Nat → List Byte → Nat → Option Nat
  | 0, _, _ => none
  | fuel + 1, buf, p => do
      let byte ← buf[p + 1]?
      if byte = SP then skipBlanks fuel buf (p + 1) else some (p + 1)

/-- The loop over the value: the bytes it leaves there, and `type`. -/
def splitLoop : Nat → List Byte → Nat → List Nat → Option (List Byte × List Nat)
  | 0, _, _, _ => none
  | fuel + 1, buf, p, type => do
      let byte ← buf[p]?
      if byte ≠ 0 ∧ type.length < MAX_SERVICE_TYPE then
        if byte = SP then
          let buf := buf.set p 0
          let p ← skipBlanks buf.length buf p
          splitLoop fuel buf (p + 1) (type ++ [p])
        else splitLoop fuel buf (p + 1) type
      else some (buf, type)

/-- The strings that `type` points to when the loop is over. -/
def split (services : List Byte) : Option (List (List Byte)) :=
  (splitLoop (services.length + 1) (services ++ [0]) 0 [0]).map fun (buf, type) =>
    type.map fun p => cString (buf.drop p)

/-! ### The services -/

def isspace (byte : Byte) : Bool := byte = SP || HT ≤ byte && byte ≤ CR

def isdigit (byte : Byte) : Bool := 0x30 ≤ byte && byte ≤ 0x39

/-- `strtol` to the base ten, which stops at the ends of `long`. -/
def strtol (text : List Byte) : Int :=
  let text := text.dropWhile isspace
  let digits := if text.head? = some 0x2d ∨ text.head? = some 0x2b then text.drop 1 else text
  let value : Nat :=
    (digits.takeWhile isdigit).foldl (fun n byte => 10 * n + (byte.toNat - 0x30)) 0
  if text.head? = some 0x2d then max (-(2 ^ 63)) (-value : Int)
  else min value (2 ^ 63 - 1)

/-- `(int) strtol`. -/
def atoi (text : List Byte) : BitVec 32 := BitVec.ofInt 32 (strtol text)

/-- `CreateServiceNode`, with the `m_sid` that the constructor sets. -/
def createServiceNode (ids : ServiceTypes) (sid : BitVec 32) : Option (BitVec 16) :=
  if sid = ids.SID_ROUTER.setWidth 32 then some ids.SID_ROUTER
  else if sid = ids.SID_CONN.setWidth 32 then some ids.SID_CONN
  else if sid = ids.SID_DB_PROXY.setWidth 32 then some ids.SID_DB_PROXY
  else if sid = ids.SID_USER_STATE.setWidth 32 then some ids.SID_USER_STATE
  else none

/-- An entry of `m_serviceNode`: what `malloc` left there, NULL, or the service of that id that
was created for that token. -/
inductive Slot where
  | indeterminate
  | null
  | service (m_sid : BitVec 16) (token : Nat)
  deriving DecidableEq

/-- `NodeMgr::getServiceNode`, by the token of the service it finds. -/
def getServiceNode : List Slot → BitVec 32 → Option (Option Nat)
  | [], _ => some none
  | .indeterminate :: _, _ => none
  | .null :: rest, sid => getServiceNode rest sid
  | .service m_sid token :: rest, sid =>
      if m_sid.setWidth 32 = sid then some (some token) else getServiceNode rest sid

/-- `RouterNode::init` and `registReq` come to `addNode`. -/
def reachesAddNode (visit : Visit) : Bool :=
  visit.configured && (List.range 4).any fun tried => 0 < visit.fds tried

/-- What `init` returns and leaves behind, and `m_serviceNode` as each `getServiceNode` found it
that the `init` of a service called. -/
structure Init where
  result : Int
  type : List (List Byte)
  m_serviceNode : List Slot
  lookups : List (List Slot)
  deriving DecidableEq

/-- The body of the second loop. Only a router's `init` looks a service up. -/
def initSlot (ids : ServiceTypes) (visits : Nat → Visit) (state : List Slot × List (List Slot))
    (token : List Byte × Nat) : List Slot × List (List Slot) :=
  match createServiceNode ids (atoi token.1) with
  | none => state
  | some sid =>
      let slots := state.1.set token.2 (.service sid token.2)
      let looksUp := sid = ids.SID_ROUTER ∧ reachesAddNode (visits token.2)
      (slots, if looksUp then state.2 ++ [slots] else state.2)

/-- `NodeMgr::init`, over what `getConfigName` answers for `service_type`. -/
def init (ids : ServiceTypes) (visits : Nat → Visit) (services : Option (List Byte)) :
    Option Init :=
  match services with
  | none => some ⟨-1, [], [], []⟩
  | some services => (split services).map fun type =>
      let table := type.zipIdx.foldl (initSlot ids visits)
        (List.replicate type.length .indeterminate, [])
      ⟨0, type, table.1, table.2⟩

end SNFrame.Core.ServiceTable
