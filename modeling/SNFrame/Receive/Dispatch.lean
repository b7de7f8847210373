import SNFrame.Base.FrameCodec
import SNFrame.Core.PbProtocolHandler

/-! A message is dispatched to the callback that was registered last for its service and its
command. `regist` computes the key from the two numbers, `handler` loads it as one word from the
two fields of the header. -/

namespace SNFrame.Receive.Dispatch
open Library.Footprint Library.Octet Base.PbBuf Core.PbProtocolHandler

variable {Callback : Type}

/-! ### The key -/

theorem protocolId_eq (sid cid : BitVec 16) : protocolId sid cid = sid ++ cid := by
  unfold protocolId
  ext i bound
  simp only [BitVec.getElem_or, BitVec.getElem_shiftLeft, BitVec.getElem_setWidth]
  grind

theorem protocolId_injective {sid cid sid' cid' : BitVec 16}
    (same : protocolId sid cid = protocolId sid' cid') : sid = sid' ∧ cid = cid' := by
  rw [protocolId_eq, protocolId_eq] at same
  have value := congrArg BitVec.toNat same
  rw [append_toNat, append_toNat] at value
  have low := cid.isLt
  have low' := cid'.isLt
  exact ⟨BitVec.eq_of_toNat_eq (by omega), BitVec.eq_of_toNat_eq (by omega)⟩

/-- The double word at the service field is the service followed by the command. -/
theorem getProtocl_eq (heap : Heap) (msg : IMString) :
    getProtocl heap msg = protocolId (getSid heap msg) (getCmd heap msg) := by
  rw [protocolId_eq]
  unfold getProtocl getSid getCmd getField
  split_ifs with live
  · simp only [Prog.run_map, loadU32, loadU16, Prog.run_bind, Prog.run_read, Prog.run_pure]
    exact swap32_word32_halves _ _ _ _
  · rfl

/-! ### The table -/

/-- The latest call for this service and command whose allocation succeeded. -/
def latest (calls : List (Regist Callback)) (sid cid : BitVec 16) : Option (Regist Callback) :=
  calls.reverse.find? fun call => call.calloc && decide (call.sid = sid) && decide (call.cid = cid)

section Latest
variable (calls : List (Regist Callback)) (call : Regist Callback) (sid cid : BitVec 16)

theorem registered_concat :
    registered (calls ++ [call]) = (regist (registered calls) call).2 := by
  rw [registered, List.foldl_append]
  rfl

theorem latest_concat :
    latest (calls ++ [call]) sid cid =
      if call.calloc ∧ call.sid = sid ∧ call.cid = cid then some call
      else latest calls sid cid := by
  rw [latest, List.reverse_append, List.reverse_singleton, List.singleton_append, List.find?_cons]
  by_cases fits : call.calloc ∧ call.sid = sid ∧ call.cid = cid
  · simp [fits]
  · rw [if_neg fits]
    split
    · simp_all
    · rfl

/-- The map holds what the latest call has put there. -/
theorem registered_eq_latest :
    registered calls (protocolId sid cid) =
      (latest calls sid cid).map fun call => ⟨call.sid, call.cid, call.cb⟩ := by
  induction calls using List.reverseRecOn with
  | nil => rfl
  | append_singleton calls call ih =>
    rw [registered_concat, latest_concat, regist]
    cases allocated : call.calloc with
    | false => simpa using ih
    | true =>
      by_cases same : call.sid = sid ∧ call.cid = cid
      · obtain ⟨rfl, rfl⟩ := same
        simp
      · have other : protocolId sid cid ≠ protocolId call.sid call.cid := by
          intro equal
          obtain ⟨left, right⟩ := protocolId_injective equal
          exact same ⟨left.symm, right.symm⟩
        simpa [Function.update_of_ne other, same] using ih

end Latest

/-- Dispatch is exact: a message goes once to the callback of the latest successful `regist` for
its service and its command, if there is one and it is not NULL, and to nothing otherwise; and a
`regist` that returns -1 changes no dispatch. -/
theorem handler_exact (calls : List (Regist Callback)) :
    (∀ heap context, handler (registered calls) heap context =
      match (latest calls (getSid heap context.msg) (getCmd heap context.msg)).bind (·.cb) with
      | some cb => [(cb, context)]
      | none => []) ∧
    (∀ call : Regist Callback, (regist (registered calls) call).1 = 0 ↔ call.calloc = true) ∧
    ∀ call : Regist Callback, (regist (registered calls) call).1 = -1 →
      handler (regist (registered calls) call).2 = handler (registered calls) := by
  refine ⟨?_, ?_, ?_⟩
  · intro heap context
    rw [handler, getProtocl_eq, registered_eq_latest]
    cases latest calls (getSid heap context.msg) (getCmd heap context.msg) with
    | none => rfl
    | some call => cases call.cb <;> rfl
  · intro call
    rw [regist]
    split_ifs with allocated <;> simp [allocated]
  · intro call failed
    cases allocated : call.calloc with
    | true => simp [regist, allocated] at failed
    | false => simp [regist, allocated]

end SNFrame.Receive.Dispatch
