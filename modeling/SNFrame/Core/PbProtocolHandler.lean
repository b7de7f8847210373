import Mathlib.Logic.Function.Basic
import SNFrame.Base.PbBuf

/-! The class PbProtocolHandler: the callbacks of the application, by the service and the command
of a message. -/

namespace SNFrame.Core.PbProtocolHandler
open Base.PbBuf

/-- The struct `context_t` that a callback gets. -/
structure Context where
  msg : IMString
  arg : Nat

variable {Callback : Type}

/-- The struct `handler_t`, less `nums`, which is never counted. -/
structure Handler (Callback : Type) where
  sid : BitVec 16
  cid : BitVec 16
  cb : Option Callback

/-- The map `m_handler`. -/
abbrev Handlers (Callback : Type) := BitVec 32 → Option (Handler Callback)

/-- As the constructor leaves the map. -/
def Handlers.empty : Handlers Callback := fun _ => none

/-- `(uint32_t)sid << 16 | cid`. -/
def protocolId (sid cid : BitVec 16) : BitVec 32 := sid.setWidth 32 <<< 16 ||| cid.setWidth 32

/-- One call of `regist`; `calloc` tells whether the allocation succeeds. -/
structure Regist (Callback : Type) where
  sid : BitVec 16
  cid : BitVec 16
  cb : Option Callback
  calloc : Bool

/-- `PbProtocolHandler::regist`. An entry that is there already is replaced. -/
def regist (handlers : Handlers Callback) (call : Regist Callback) : Int × Handlers Callback :=
  if call.calloc then
    (0, Function.update handlers (protocolId call.sid call.cid)
      (some ⟨call.sid, call.cid, call.cb⟩))
  else (-1, handlers)

/-- `PbProtocolHandler::handler`: the callbacks that it invokes, in order. -/
def handler (handlers : Handlers Callback) (heap : Heap) (context : Context) :
    List (Callback × Context) :=
  match handlers (getProtocl heap context.msg) with
  | some handler =>
    match handler.cb with
    | some cb => [(cb, context)]
    | none => []
  | none => []

/-- The map after a sequence of calls. -/
def registered (calls : List (Regist Callback)) : Handlers Callback :=
  calls.foldl (fun handlers call => (regist handlers call).2) .empty

end SNFrame.Core.PbProtocolHandler
