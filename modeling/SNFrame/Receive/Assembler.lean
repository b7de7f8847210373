import SNFrame.Base.Checksum
import SNFrame.Core.TcpParse
import SNFrame.Library.Framing

/-! The receiver on lists: what is unread, and the partial frame that is being collected. The
state carries the facts that the fields `buf_len`, `less_pkt_len` and `pkt` of a connection
must keep, so that a value of it is a consistent receive state. -/

namespace SNFrame.Receive.Assembler
open Library.Octet Library.Framing Base.PbBuf Base.Checksum Core.Receiving Core.TcpParse

/-- The length field at the start of the given bytes. -/
def lenField (bytes : List Byte) : BitVec 16 :=
  ntohs (word16 (bytes.getD 24 0) (bytes.getD 25 0))

def frameLen (bytes : List Byte) : Nat := (lenField bytes).toNat + HEAD_LEN

def tagged (bytes : List Byte) : Bool :=
  bytes.getD 0 0 = TAG_HEAD_1 && bytes.getD 1 0 = TAG_HEAD_2

theorem getD_append (bytes more : List Byte) (i : Nat) (inside : i < bytes.length) :
    (bytes ++ more).getD i 0 = bytes.getD i 0 := by
  simp [List.getD, List.getElem?_append_left inside]

theorem frameLen_append (bytes more : List Byte) (headed : HEAD_LEN ≤ bytes.length) :
    frameLen (bytes ++ more) = frameLen bytes := by
  simp only [HEAD_LEN] at headed
  simp only [frameLen, lenField, getD_append bytes more 24 (by omega),
    getD_append bytes more 25 (by omega)]

/-- The framing of the protocol: 27 bytes of header, and the body that they announce. -/
def format : Format Byte where
  head := HEAD_LEN
  size := frameLen
  headed _ := Nat.le_add_left ..
  header := frameLen_append

/-- The first position at which a tag begins. -/
def firstTag : List Byte → Option Nat
  | b0 :: b1 :: rest =>
      if b0 = TAG_HEAD_1 ∧ b1 = TAG_HEAD_2 then some 0 else (firstTag (b1 :: rest)).map (· + 1)
  | _ => none

theorem firstTag_lt (bytes : List Byte) (i : Nat) (found : firstTag bytes = some i) :
    i + 1 < bytes.length := by
  induction bytes generalizing i with
  | nil => simp [firstTag] at found
  | cons b0 tail ih =>
    cases tail with
    | nil => simp [firstTag] at found
    | cons b1 rest =>
      by_cases here : b0 = TAG_HEAD_1 ∧ b1 = TAG_HEAD_2
      · simp only [firstTag, if_pos here, Option.some.injEq] at found
        simp only [List.length_cons]
        omega
      · simp only [firstTag, if_neg here, Option.map_eq_some_iff] at found
        obtain ⟨j, later, rfl⟩ := found
        have bound := ih j later
        simp only [List.length_cons] at bound ⊢
        omega

theorem firstTag_pos (bytes : List Byte) (i : Nat) (untagged : tagged bytes = false)
    (found : firstTag bytes = some i) : 0 < i := by
  match bytes, found with
  | b0 :: b1 :: rest, found =>
    have absent : ¬(b0 = TAG_HEAD_1 ∧ b1 = TAG_HEAD_2) := by simpa [tagged] using untagged
    simp only [firstTag, if_neg absent, Option.map_eq_some_iff] at found
    obtain ⟨j, -, rfl⟩ := found
    exact Nat.succ_pos j

/-- A frame whose header is here and whose last `less` bytes are not. -/
structure Pending where
  got : List Byte
  less : Nat
  headed : HEAD_LEN ≤ got.length
  short : 0 < less
  total : got.length + less = frameLen got

def Pending.begin (unread : List Byte) (long : HEAD_LEN ≤ unread.length)
    (partly : ¬frameLen unread ≤ unread.length) : Pending where
  got := unread
  less := frameLen unread - unread.length
  headed := long
  short := by omega
  total := by omega

def Pending.extend (pending : Pending) (more : List Byte) (partly : ¬pending.less ≤ more.length) :
    Pending where
  got := pending.got ++ more
  less := pending.less - more.length
  headed := by
    rw [List.length_append]
    exact Nat.le_add_right_of_le pending.headed
  short := by omega
  total := by
    rw [frameLen_append _ _ pending.headed, ← pending.total, List.length_append]
    omega

structure Assembly where
  unread : List Byte
  pending : Option Pending

namespace Assembly

def fresh : Assembly := ⟨[], none⟩

/-- Everything in hand, in the order it was received. -/
def inHand (state : Assembly) : List Byte :=
  (match state.pending with
    | none => []
    | some pending => pending.got) ++ state.unread

end Assembly

inductive Move where
  | next (state : Assembly) (out : List Dispatch)
  | leave (state : Assembly)

/-- One iteration of the loop, taken with at least a header's length unread. A frame that no
buffer can be had for stays unread. -/
def step (sids : ServiceID) (ambient : Ambient) (state : Assembly)
    (long : HEAD_LEN ≤ state.unread.length) : Move :=
  match state.pending with
  | none =>
      if tagged state.unread then
        if ambient.malloc then
          if whole : frameLen state.unread ≤ state.unread.length then
            .next ⟨state.unread.drop (frameLen state.unread), none⟩
              (deliver sids ambient (held (state.unread.take (frameLen state.unread)) []))
          else .leave ⟨[], some (.begin state.unread long whole)⟩
        else .next ⟨state.unread, none⟩ []
      else
        match firstTag state.unread with
        | some i =>
            if i = state.unread.length - i - 1 then .leave .fresh
            else .next ⟨state.unread.drop i, none⟩ []
        | none => .leave .fresh
  | some pending =>
      if whole : pending.less ≤ state.unread.length then
        .next ⟨state.unread.drop pending.less, none⟩
          (deliver sids ambient (held (pending.got ++ state.unread.take pending.less) []))
      else .next ⟨[], some (pending.extend state.unread whole)⟩ []

/-- The loop, for a given number of iterations; `none` when they do not suffice. -/
def assemble (sids : ServiceID) : Nat → (Nat → Ambient) → Assembly →
    Option (Assembly × List Dispatch)
  | count, ambient, state =>
      if long : HEAD_LEN ≤ state.unread.length then
        match count with
        | 0 => none
        | count + 1 =>
            match step sids (ambient 0) state long with
            | .next later out =>
                (assemble sids count (fun n => ambient (n + 1)) later).map fun rest =>
                  (rest.1, out ++ rest.2)
            | .leave later => some (later, [])
      else some (state, [])

/-- A frame begins here and there is no buffer for it. -/
def Starved (ambient : Ambient) (state : Assembly) : Prop :=
  state.pending = none ∧ tagged state.unread = true ∧ ambient.malloc = false

theorem step_starved {sids : ServiceID} {ambient : Ambient} {state : Assembly}
    (long : HEAD_LEN ≤ state.unread.length) (starved : Starved ambient state) :
    step sids ambient state long = .next state [] := by
  obtain ⟨idle, here, failed⟩ := starved
  obtain ⟨unread, pending⟩ := state
  cases idle
  simp only [step, if_pos here, failed, Bool.false_eq_true, if_false]

/-- An iteration takes a byte off the unread ones or leaves the loop, unless it asks for a
buffer in vain. -/
theorem step_shrinks {sids : ServiceID} {ambient : Ambient} {state later : Assembly}
    {long : HEAD_LEN ≤ state.unread.length} {out : List Dispatch}
    (fed : ¬Starved ambient state) (moved : step sids ambient state long = .next later out) :
    later.unread.length < state.unread.length := by
  have nonempty : 0 < state.unread.length := Nat.lt_of_lt_of_le (by decide) long
  unfold step at moved
  split at moved
  · next idle =>
    split at moved
    · next here =>
      have malloc : ambient.malloc = true := by
        by_contra failed
        exact fed ⟨idle, here, Bool.eq_false_iff.mpr failed⟩
      rw [if_pos malloc] at moved
      split at moved
      · cases moved
        have headed : 0 < frameLen state.unread := Nat.lt_of_lt_of_le (by decide) (format.headed _)
        simp only [List.length_drop]
        omega
      · cases moved
    · next untagged =>
      split at moved
      · next i found =>
        have positive := firstTag_pos _ i (Bool.eq_false_iff.mpr untagged) found
        split at moved
        · cases moved
        · cases moved
          simp only [List.length_drop]
          omega
      · cases moved
  · next pending _ =>
    have positive := pending.short
    split at moved
    · cases moved
      simp only [List.length_drop]
      omega
    · cases moved
      exact nonempty

/-- After an iteration a frame is being collected only if nothing is left unread. -/
theorem step_drained {sids : ServiceID} {ambient : Ambient} {state later : Assembly}
    {long : HEAD_LEN ≤ state.unread.length}
    (moved : step sids ambient state long = .leave later ∨
      ∃ out, step sids ambient state long = .next later out) :
    later.pending = none ∨ later.unread = [] := by
  unfold step at moved
  grind [Assembly.fresh]

theorem step_leaves {sids : ServiceID} {ambient : Ambient} {state later : Assembly}
    {long : HEAD_LEN ≤ state.unread.length}
    (moved : step sids ambient state long = .leave later) : later.unread = [] := by
  unfold step at moved
  grind [Assembly.fresh]

/-- The induction over the iterations of the loop: what holds at the start and is kept by every
iteration holds where the loop ends. -/
theorem assemble_induction {sids : ServiceID} (kept : Assembly → List Dispatch → Prop)
    (next : ∀ ambient state long later out so_far, kept state so_far →
      step sids ambient state long = .next later out → kept later (so_far ++ out))
    (leave : ∀ ambient state long later so_far, kept state so_far →
      step sids ambient state long = .leave later → kept later so_far)
    (count : Nat) (ambient : Nat → Ambient) {state last : Assembly} (so_far : List Dispatch)
    {more : List Dispatch} (initial : kept state so_far)
    (ended : assemble sids count ambient state = some (last, more)) : kept last (so_far ++ more) := by
  induction count generalizing ambient state so_far more with
  | zero =>
    unfold assemble at ended
    split at ended
    · cases ended
    · cases ended
      rwa [List.append_nil]
  | succ count ih =>
    unfold assemble at ended
    split at ended
    · next long =>
      simp only at ended
      cases moved : step sids (ambient 0) state long with
      | next later out =>
        simp only [moved, Option.map_eq_some_iff] at ended
        obtain ⟨rest, continues, same⟩ := ended
        cases same
        rw [← List.append_assoc]
        exact ih _ _ (next _ _ _ _ _ _ initial moved) continues
      | leave later =>
        simp only [moved] at ended
        cases ended
        rw [List.append_nil]
        exact leave _ _ _ _ _ initial moved
    · cases ended
      rwa [List.append_nil]

theorem assemble_idle {sids : ServiceID} (count : Nat) (ambient : Nat → Ambient) {state : Assembly}
    (short : state.unread.length < HEAD_LEN) :
    assemble sids count ambient state = some (state, []) := by
  unfold assemble
  rw [dif_neg (Nat.not_le.mpr short)]

/-- Once the loop has run, a frame is being collected only if nothing is left unread. -/
theorem assemble_drained {sids : ServiceID} (count : Nat) (ambient : Nat → Ambient)
    {state last : Assembly} {out : List Dispatch} (long : HEAD_LEN ≤ state.unread.length)
    (ended : assemble sids count ambient state = some (last, out)) :
    last.pending = none ∨ last.unread = [] := by
  have later : ∀ count ambient (middle : Assembly) more,
      (middle.pending = none ∨ middle.unread = []) →
      assemble sids count ambient middle = some (last, more) →
      last.pending = none ∨ last.unread = [] := by
    intro count ambient middle more drained ends
    exact assemble_induction (fun state _ => state.pending = none ∨ state.unread = [])
      (fun _ _ _ _ more _ _ moved => step_drained (.inr ⟨more, moved⟩))
      (fun _ _ _ _ _ _ moved => step_drained (.inl moved)) count ambient [] drained ends
  unfold assemble at ended
  rw [dif_pos long] at ended
  cases count with
  | zero => cases ended
  | succ count =>
    simp only at ended
    cases moved : step sids (ambient 0) state long with
    | next middle more =>
      simp only [moved, Option.map_eq_some_iff] at ended
      obtain ⟨rest, continues, same⟩ := ended
      cases same
      exact later _ _ middle _ (step_drained (.inr ⟨more, moved⟩)) continues
    | leave middle =>
      simp only [moved] at ended
      cases ended
      exact step_drained (.inl moved)

/-- Where the loop ends, less than a header is unread. -/
theorem assemble_short {sids : ServiceID} (count : Nat) (ambient : Nat → Ambient)
    {state last : Assembly} {out : List Dispatch}
    (ended : assemble sids count ambient state = some (last, out)) :
    last.unread.length < HEAD_LEN := by
  induction count generalizing ambient state out with
  | zero =>
    unfold assemble at ended
    split at ended
    · cases ended
    · cases ended
      omega
  | succ count ih =>
    unfold assemble at ended
    split at ended
    · next long =>
      simp only at ended
      cases moved : step sids (ambient 0) state long with
      | next later more =>
        simp only [moved, Option.map_eq_some_iff] at ended
        obtain ⟨rest, continues, same⟩ := ended
        cases same
        exact ih _ continues
      | leave later =>
        simp only [moved] at ended
        cases ended
        rw [step_leaves moved]
        decide
    · cases ended
      omega

/-- While allocation succeeds, as many iterations as there are unread bytes are enough. -/
theorem assemble_returns (sids : ServiceID) (count : Nat) (ambient : Nat → Ambient)
    (malloc : ∀ n, (ambient n).malloc = true) (state : Assembly)
    (enough : state.unread.length ≤ count) :
    ∃ last out, assemble sids count ambient state = some (last, out) := by
  induction count generalizing ambient state with
  | zero =>
    unfold assemble
    rw [dif_neg (by rw [HEAD_LEN]; omega)]
    exact ⟨_, _, rfl⟩
  | succ count ih =>
    unfold assemble
    by_cases long : HEAD_LEN ≤ state.unread.length
    · rw [dif_pos long]
      simp only
      cases moved : step sids (ambient 0) state long with
      | next later out =>
        have fed : ¬Starved (ambient 0) state := by simp [Starved, malloc 0]
        have shrinks := step_shrinks fed moved
        obtain ⟨last, more, ended⟩ := ih (fun n => ambient (n + 1)) (fun n => malloc (n + 1)) later
          (by omega)
        simp only [ended, Option.map_some]
        exact ⟨_, _, rfl⟩
      | leave later => exact ⟨_, _, rfl⟩
    · rw [dif_neg long]
      exact ⟨_, _, rfl⟩

end SNFrame.Receive.Assembler
