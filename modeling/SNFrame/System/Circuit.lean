import SNFrame.System.Processes
import SNFrame.System.Requests

/-! The frames that each end of a connection has been given to send: what the wires have of them,
and what is said in them. -/

namespace SNFrame.System.Circuit
open Library.Octet Base.PbBuf Core.TcpParse Core.NodeMgr Receive.Parcels Processes Requests

/-- The frames that each connection has been given to send so far. -/
abbrev Streams := Endpoint → List (List Byte)

/-- What the other end has been given to send. -/
def upstream (wires : Wires) (streams : Streams) (e : Endpoint) : List (List Byte) :=
  match wires.peer e with
  | none => []
  | some far => streams far

theorem upstream_of_peer {wires : Wires} (streams : Streams) {e far : Endpoint}
    (peer : wires.peer e = some far) : upstream wires streams e = streams far := by
  rw [upstream, peer]

/-! ### What frames say -/

section Carried
variable {proto : Proto} {kind : Kind} {frames more : List (List Byte)}
  {ids : BitVec 16 × BitVec 32}

/-- One of the frames is a message of that kind with the ids. -/
def Carried (proto : Proto) (kind : Kind) (frames : List (List Byte))
    (ids : BitVec 16 × BitVec 32) : Prop :=
  ∃ frame ∈ frames, Carrying proto frame kind ids

abbrev Asked (proto : Proto) (frames : List (List Byte)) (ids : BitVec 16 × BitVec 32) : Prop :=
  Carried proto (requestKind proto) frames ids

abbrev Told (proto : Proto) (frames : List (List Byte)) (ids : BitVec 16 × BitVec 32) : Prop :=
  Carried proto (responseKind proto) frames ids

theorem Carried.mono (carried : Carried proto kind frames ids) (before : frames <+: more) :
    Carried proto kind more ids := by
  obtain ⟨frame, inside, carrying⟩ := carried
  exact ⟨frame, before.subset inside, carrying⟩

theorem carried_append : Carried proto kind (frames ++ more) ids ↔
    Carried proto kind frames ids ∨ Carried proto kind more ids := by
  simp only [Carried, List.mem_append, or_and_right, exists_or]

theorem not_carried_nil : ¬Carried proto kind [] ids :=
  fun ⟨_, inside, _⟩ => List.not_mem_nil inside

theorem not_asked_of_plain (plain : ∀ frame ∈ frames, Plain proto frame) :
    ¬Asked proto frames ids :=
  fun ⟨frame, inside, carrying⟩ => (plain frame inside).request carrying.commands

theorem not_told_of_plain (plain : ∀ frame ∈ frames, Plain proto frame) :
    ¬Told proto frames ids :=
  fun ⟨frame, inside, carrying⟩ => (plain frame inside).response carrying.commands

end Carried

/-! ### The wires -/

/-- Nobody has dialled or accepted this connection yet. -/
structure Unborn (wires : Wires) (streams : Streams) (e : Endpoint) : Prop where
  caller : wires.caller e = false
  pending : wires.pending e = false
  severed : wires.severed e = false
  peer : wires.peer e = none
  given : wires.given e = []
  received : wires.received e = []
  stream : streams e = []

structure Wired (next : Nat → Nat) (wires : Wires) (streams : Streams) : Prop where
  unborn : ∀ e, next e.1 ≤ e.2 → Unborn wires streams e
  paired : ∀ e far, wires.peer e = some far → wires.peer far = some e
  roles : ∀ e far, wires.peer e = some far → wires.caller far = !wires.caller e
  waiting : ∀ e, wires.pending e = true → wires.caller e = true ∧ wires.peer e = none
  given : ∀ e, wires.given e <+: (streams e).flatten
  received : ∀ e, wires.received e <+: wires.arrives e
  parcels : ∀ e, ∀ frame ∈ streams e, Parcel frame

/-- Only callers ask, once and for one node, and only what was asked for is told. -/
structure Spoken (proto : Proto) (wires : Wires) (streams : Streams) : Prop where
  asks : ∀ e ids, Asked proto (streams e) ids → wires.caller e = true
  once : ∀ e ids other, Asked proto (streams e) ids → Asked proto (streams e) other → ids = other
  tells : ∀ e ids, Told proto (streams e) ids → Asked proto (upstream wires streams e) ids

/-- Nothing changes but what there is of this connection, which may be new. -/
structure Touches (e : Endpoint) (wires after : Wires) (streams later : Streams) : Prop where
  peer : after.peer = wires.peer
  caller : ∀ f ≠ e, after.caller f = wires.caller f
  pending : ∀ f ≠ e, after.pending f = wires.pending f
  severed : ∀ f ≠ e, after.severed f = wires.severed f
  given : ∀ f ≠ e, after.given f = wires.given f
  received : ∀ f ≠ e, after.received f = wires.received f
  sent : ∀ f ≠ e, later f = streams f
  role : ∀ far, wires.peer e = some far → after.caller e = wires.caller e
  gives : wires.given e <+: after.given e
  sends : streams e <+: later e

section Wired
variable {proto : Proto} {next number : Nat → Nat} {wires after : Wires} {streams later : Streams}
  {e : Endpoint}

theorem Touches.refl (e : Endpoint) (wires : Wires) (streams : Streams) :
    Touches e wires wires streams streams := by
  constructor <;> simp

/-- The connection has more to send. -/
theorem touches_push (e : Endpoint) (wires : Wires) (streams : Streams)
    (frames : List (List Byte)) :
    Touches e wires wires streams (Function.update streams e (streams e ++ frames)) where
  peer := rfl
  caller := fun _ _ => rfl
  pending := fun _ _ => rfl
  severed := fun _ _ => rfl
  given := fun _ _ => rfl
  received := fun _ _ => rfl
  sent := fun _ apart => Function.update_of_ne apart ..
  role := fun _ _ => rfl
  gives := List.prefix_rfl
  sends := by
    rw [Function.update_self]
    exact List.prefix_append ..

theorem touches_give (e : Endpoint) (wires : Wires) (streams : Streams) (bytes : List Byte) :
    Touches e wires (wires.give e bytes) streams streams where
  peer := rfl
  caller := fun _ _ => rfl
  pending := fun _ _ => rfl
  severed := fun _ _ => rfl
  given := fun _ apart => Function.update_of_ne apart ..
  received := fun _ _ => rfl
  sent := fun _ _ => rfl
  role := fun _ _ => rfl
  gives := by
    simp only [Wires.give]
    rw [Function.update_self]
    exact List.prefix_append ..
  sends := List.prefix_rfl

theorem touches_receive (e : Endpoint) (wires : Wires) (streams : Streams) (bytes : List Byte) :
    Touches e wires (wires.receive e bytes) streams streams where
  peer := rfl
  caller := fun _ _ => rfl
  pending := fun _ _ => rfl
  severed := fun _ _ => rfl
  given := fun _ _ => rfl
  received := fun _ apart => Function.update_of_ne apart ..
  sent := fun _ _ => rfl
  role := fun _ _ => rfl
  gives := List.prefix_rfl
  sends := List.prefix_rfl

theorem Touches.trans {middle : Wires} {between : Streams}
    (first : Touches e wires middle streams between)
    (second : Touches e middle after between later) : Touches e wires after streams later where
  peer := second.peer.trans first.peer
  caller := fun f apart => (second.caller f apart).trans (first.caller f apart)
  pending := fun f apart => (second.pending f apart).trans (first.pending f apart)
  severed := fun f apart => (second.severed f apart).trans (first.severed f apart)
  given := fun f apart => (second.given f apart).trans (first.given f apart)
  received := fun f apart => (second.received f apart).trans (first.received f apart)
  sent := fun f apart => (second.sent f apart).trans (first.sent f apart)
  role := by
    intro far peer
    rw [second.role far (by rw [first.peer, peer]), first.role far peer]
  gives := first.gives.trans second.gives
  sends := first.sends.trans second.sends

theorem touches_dial (unborn : wires.peer e = none) :
    Touches e wires (wires.dial e) streams streams where
  peer := rfl
  caller := fun _ apart => Function.update_of_ne apart ..
  pending := fun _ apart => Function.update_of_ne apart ..
  severed := fun _ _ => rfl
  given := fun _ _ => rfl
  received := fun _ _ => rfl
  sent := fun _ _ => rfl
  role := by
    intro far peer
    rw [unborn] at peer
    cases peer
  gives := List.prefix_rfl
  sends := List.prefix_rfl

theorem touches_sendBlock (e : Endpoint) (wires : Wires) (streams : Streams) (msg : IMString)
    (sent : Nat) : Touches e wires (wires.sendBlock e msg sent) streams streams := by
  have gives := touches_give e wires streams (msg.bytes.take sent)
  unfold Wires.sendBlock
  dsimp only
  split_ifs
  · refine gives.trans ?_
    constructor
    · rfl
    · exact fun _ _ => rfl
    · exact fun _ _ => rfl
    · exact fun _ apart => Function.update_of_ne apart ..
    · exact fun _ _ => rfl
    · exact fun _ _ => rfl
    · exact fun _ _ => rfl
    · exact fun _ _ => rfl
    · exact List.prefix_rfl
    · exact List.prefix_rfl
  · exact gives

theorem Touches.given_grows (touches : Touches e wires after streams later) (f : Endpoint) :
    wires.given f <+: after.given f := by
  by_cases same : f = e
  · rw [same]
    exact touches.gives
  · rw [touches.given f same]

theorem Touches.stream_grows (touches : Touches e wires after streams later) (f : Endpoint) :
    streams f <+: later f := by
  by_cases same : f = e
  · rw [same]
    exact touches.sends
  · rw [touches.sent f same]

theorem Touches.upstream_grows (touches : Touches e wires after streams later) (f : Endpoint) :
    upstream wires streams f <+: upstream after later f := by
  unfold upstream
  rw [touches.peer]
  cases wires.peer f with
  | none => exact List.prefix_rfl
  | some far => exact touches.stream_grows far

theorem Touches.arrives_grows (touches : Touches e wires after streams later) (f : Endpoint) :
    wires.arrives f <+: after.arrives f := by
  unfold Wires.arrives
  rw [touches.peer]
  cases wires.peer f with
  | none => exact List.prefix_rfl
  | some far => exact touches.given_grows far

/-- What arrives are frames of the other end. -/
theorem Wired.arrives_within (wired : Wired next wires streams) (e : Endpoint) :
    wires.arrives e <+: (upstream wires streams e).flatten := by
  unfold Wires.arrives upstream
  cases wires.peer e with
  | none => exact List.prefix_rfl
  | some far => exact wired.given far

theorem Wired.upstream_parcels (wired : Wired next wires streams) (e : Endpoint) :
    ∀ frame ∈ upstream wires streams e, Parcel frame := by
  unfold upstream
  cases wires.peer e with
  | none => exact fun _ inside => absurd inside List.not_mem_nil
  | some far => exact wired.parcels far

theorem Wired.touched (wired : Wired next wires streams)
    (touches : Touches e wires after streams later) (grows : ∀ p, next p ≤ number p)
    (born : e.2 < number e.1)
    (waiting : after.pending e = true → after.caller e = true ∧ wires.peer e = none)
    (given : after.given e <+: (later e).flatten) (received : after.received e <+: wires.arrives e)
    (parcels : ∀ frame ∈ later e, Parcel frame) : Wired number after later where
  unborn := by
    intro f above
    have apart : f ≠ e := by
      rintro rfl
      exact absurd born (Nat.not_lt.mpr above)
    have was := wired.unborn f (le_trans (grows f.1) above)
    constructor
    · rw [touches.caller f apart, was.caller]
    · rw [touches.pending f apart, was.pending]
    · rw [touches.severed f apart, was.severed]
    · rw [touches.peer, was.peer]
    · rw [touches.given f apart, was.given]
    · rw [touches.received f apart, was.received]
    · rw [touches.sent f apart, was.stream]
  paired := by
    rw [touches.peer]
    exact wired.paired
  roles := by
    rw [touches.peer]
    have kept : ∀ f far, wires.peer f = some far → after.caller f = wires.caller f := by
      intro f far peer
      by_cases same : f = e
      · subst same
        exact touches.role far peer
      · exact touches.caller f same
    intro f far peer
    rw [kept f far peer, kept far f (wired.paired f far peer)]
    exact wired.roles f far peer
  waiting := by
    intro f pending
    rw [touches.peer]
    by_cases same : f = e
    · subst same
      exact waiting pending
    · rw [touches.pending f same] at pending
      rw [touches.caller f same]
      exact wired.waiting f pending
  given := by
    intro f
    by_cases same : f = e
    · rw [same]
      exact given
    · rw [touches.given f same, touches.sent f same]
      exact wired.given f
  received := by
    intro f
    refine List.IsPrefix.trans ?_ (touches.arrives_grows f)
    by_cases same : f = e
    · rw [same]
      exact received
    · rw [touches.received f same]
      exact wired.received f
  parcels := by
    intro f
    by_cases same : f = e
    · rw [same]
      exact parcels
    · rw [touches.sent f same]
      exact wired.parcels f

theorem Spoken.touched (spoken : Spoken proto wires streams)
    (touches : Touches e wires after streams later)
    (asks : ∀ ids, Asked proto (later e) ids → after.caller e = true)
    (once : ∀ ids other, Asked proto (later e) ids → Asked proto (later e) other → ids = other)
    (tells : ∀ ids, Told proto (later e) ids → Asked proto (upstream wires streams e) ids) :
    Spoken proto after later where
  asks := by
    intro f ids asked
    by_cases same : f = e
    · subst same
      exact asks ids asked
    · rw [touches.sent f same] at asked
      rw [touches.caller f same]
      exact spoken.asks f ids asked
  once := by
    intro f ids other asked also
    by_cases same : f = e
    · subst same
      exact once ids other asked also
    · rw [touches.sent f same] at asked also
      exact spoken.once f ids other asked also
  tells := by
    intro f ids told
    refine Carried.mono ?_ (touches.upstream_grows f)
    by_cases same : f = e
    · subst same
      exact tells ids told
    · rw [touches.sent f same] at told
      exact spoken.tells f ids told

/-- Nothing is said in plain frames. -/
theorem Spoken.plainly (spoken : Spoken proto wires streams)
    (touches : Touches e wires after streams later) {frames : List (List Byte)}
    (adds : later e = streams e ++ frames) (plain : ∀ frame ∈ frames, Plain proto frame)
    (caller : wires.caller e = true → after.caller e = true) : Spoken proto after later := by
  have asked : ∀ ids, Asked proto (later e) ids → Asked proto (streams e) ids := by
    intro ids asked
    rw [adds] at asked
    exact (carried_append.mp asked).resolve_right (not_asked_of_plain plain)
  apply spoken.touched touches
  · exact fun ids said => caller (spoken.asks e ids (asked ids said))
  · exact fun ids other said also => spoken.once e ids other (asked ids said) (asked other also)
  · intro ids told
    rw [adds] at told
    exact spoken.tells e ids ((carried_append.mp told).resolve_right (not_told_of_plain plain))

/-! ### A caller is accepted or refused -/

variable {caller server : Endpoint}

theorem join_peer_caller (apart : caller ≠ server) :
    (wires.join caller server).peer caller = some server := by
  simp only [Wires.join]
  rw [Function.update_of_ne apart, Function.update_self]

theorem join_peer_server : (wires.join caller server).peer server = some caller := by
  simp only [Wires.join]
  rw [Function.update_self]

theorem join_peer_of_ne {f : Endpoint} (one : f ≠ caller) (two : f ≠ server) :
    (wires.join caller server).peer f = wires.peer f := by
  simp only [Wires.join]
  rw [Function.update_of_ne two, Function.update_of_ne one]

/-- The other connections have the peers that they had. -/
theorem join_peer_of_peer (alone : wires.peer caller = none) (unborn : wires.peer server = none)
    {f far : Endpoint} (peer : wires.peer f = some far) :
    (wires.join caller server).peer f = some far := by
  rw [join_peer_of_ne, peer]
  · rintro rfl
    rw [alone] at peer
    cases peer
  · rintro rfl
    rw [unborn] at peer
    cases peer

/-- The new connection of the process is the other end of the caller. -/
theorem join_cases (apart : caller ≠ server) {f far : Endpoint}
    (peer : (wires.join caller server).peer f = some far) :
    f = caller ∧ far = server ∨ f = server ∧ far = caller ∨ wires.peer f = some far := by
  by_cases one : f = caller
  · rw [one, join_peer_caller apart, Option.some.injEq] at peer
    exact .inl ⟨one, peer.symm⟩
  · by_cases two : f = server
    · rw [two, join_peer_server, Option.some.injEq] at peer
      exact .inr (.inl ⟨two, peer.symm⟩)
    · rw [join_peer_of_ne one two] at peer
      exact .inr (.inr peer)

theorem upstream_join (alone : wires.peer caller = none) (unborn : wires.peer server = none)
    (f : Endpoint) :
    upstream wires streams f <+: upstream (wires.join caller server) streams f := by
  cases peer : wires.peer f with
  | none =>
    rw [upstream, peer]
    exact List.nil_prefix
  | some far =>
    rw [upstream_of_peer _ peer, upstream_of_peer _ (join_peer_of_peer alone unborn peer)]

theorem Wired.joined {p : Nat} (wired : Wired next wires streams)
    (pending : wires.pending caller = true) : Wired (Function.update next p (next p + 1))
      (wires.join caller (p, next p)) streams := by
  have unborn := wired.unborn (p, next p) le_rfl
  obtain ⟨calls, alone⟩ := wired.waiting caller pending
  have apart : caller ≠ (p, next p) := by
    rintro rfl
    rw [unborn.pending] at pending
    cases pending
  refine ⟨fun f above => ?_, fun f far peer => ?_, fun f far peer => ?_, fun f waits => ?_,
    wired.given, fun f => ?_, wired.parcels⟩
  · have different : f ≠ (p, next p) := by
      rintro rfl
      simp only [Function.update_self] at above
      omega
    have was : Unborn wires streams f := by
      apply wired.unborn
      by_cases same : f.1 = p
      · rw [same, Function.update_self] at above
        rw [same]
        omega
      · rwa [Function.update_of_ne same] at above
    have other : f ≠ caller := by
      rintro rfl
      rw [was.pending] at pending
      cases pending
    refine ⟨was.caller, ?_, was.severed, ?_, was.given, was.received, was.stream⟩
    · exact (Function.update_of_ne other ..).trans was.pending
    · rw [join_peer_of_ne other different, was.peer]
  · rcases join_cases apart peer with ⟨rfl, rfl⟩ | ⟨rfl, rfl⟩ | was
    · exact join_peer_server
    · exact join_peer_caller apart
    · exact join_peer_of_peer alone unborn.peer (wired.paired f far was)
  · change wires.caller far = !wires.caller f
    rcases join_cases apart peer with ⟨rfl, rfl⟩ | ⟨rfl, rfl⟩ | was
    · rw [unborn.caller, calls]
      rfl
    · rw [unborn.caller, calls]
      rfl
    · exact wired.roles f far was
  · have other : f ≠ caller := by
      rintro rfl
      simp [Wires.join, Wires.refuse] at waits
    have still : wires.pending f = true := by
      rwa [← show (wires.join caller (p, next p)).pending f = wires.pending f from
        Function.update_of_ne other ..]
    have different : f ≠ (p, next p) := by
      rintro rfl
      rw [unborn.pending] at still
      cases still
    rw [join_peer_of_ne other different]
    exact wired.waiting f still
  · refine (wired.received f).trans ?_
    unfold Wires.arrives
    cases peer : wires.peer f with
    | none => exact List.nil_prefix
    | some far =>
      rw [join_peer_of_peer alone unborn.peer peer]
      exact List.prefix_rfl

theorem Spoken.joined (spoken : Spoken proto wires streams) (alone : wires.peer caller = none)
    (unborn : wires.peer server = none) : Spoken proto (wires.join caller server) streams where
  asks := spoken.asks
  once := spoken.once
  tells := fun f ids told => (spoken.tells f ids told).mono (upstream_join alone unborn f)

theorem Wired.refused (wired : Wired next wires streams) (caller : Endpoint) :
    Wired next (wires.refuse caller) streams where
  unborn := by
    intro f above
    have was := wired.unborn f above
    refine ⟨was.caller, ?_, was.severed, was.peer, was.given, was.received, was.stream⟩
    by_cases same : f = caller
    · rw [same]
      exact Function.update_self ..
    · exact (Function.update_of_ne same ..).trans was.pending
  paired := wired.paired
  roles := wired.roles
  waiting := by
    intro f waits
    apply wired.waiting f
    by_cases same : f = caller
    · rw [same] at waits
      simp [Wires.refuse] at waits
    · exact (Function.update_of_ne same ..).symm.trans waits
  given := wired.given
  received := wired.received
  parcels := wired.parcels

end Wired

end SNFrame.System.Circuit
