import SNFrame.Core.ThreadPool
import SNFrame.Library.Transition

/-! The scaling loop of the pool. Growing and shrinking both run from `m_working_num` upwards:
growing wakes the threads that come next, but shrinking counts down for threads that are
asleep already. -/

namespace SNFrame.System.Scaling
open Library.Transition Core.ThreadPool

/-- The first `m_working_num` threads work and the others do not. -/
structure Sound (pool : Pool) : Prop where
  flags : ∀ (i : Nat) (info : ThreadInfo), pool.threads[i]? = some info →
    (info.work = true ↔ i < pool.workingNum)
  least : pool.minThreads ≤ pool.workingNum
  most : pool.workingNum ≤ pool.threads.length

/-- The number of threads at rest. -/
def resting (pool : Pool) : Nat := pool.threads.countP fun info => !info.work

/-- The pass neither creates threads nor finds its load steady: it is to wake some. -/
def Grows (loop : Scaling) (load : BitVec 32) : Prop :=
  loop.pool.maxThreads ≤ loop.pool.threads.length ∧ growing load (loop.temp.getD load) = true

/-- What a pass should do. -/
def PassSound (loop : Scaling) (load : BitVec 32) : Prop :=
  ∃ next, scale loop load = some next ∧ Sound next.pool ∧
    (next.pool.workingNum < loop.pool.workingNum →
      resting next.pool =
        resting loop.pool + (loop.pool.workingNum - next.pool.workingNum)) ∧
    (Grows loop load → loop.pool.workingNum < loop.pool.threads.length →
      loop.pool.workingNum < next.pool.workingNum)

/-- The pass shrinks while some threads are idle already. -/
def ShrinksIdle (loop : Scaling) (load : BitVec 32) : Prop :=
  loop.pool.maxThreads ≤ loop.pool.threads.length ∧
    shrinking loop.pool load (loop.temp.getD load) = true ∧
    loop.pool.workingNum < loop.pool.threads.length

/-- The parameters, as `init` takes them from `int` arguments. -/
structure Fits (pool : Pool) : Prop where
  least : 1 ≤ pool.minThreads
  most : pool.threads.length ≤ pool.maxThreads
  int : pool.maxThreads < 2 ^ 31
  gradient : 1 ≤ pool.gradient
  gradientInt : pool.gradient < 2 ^ 31

/-! ### The loops -/

/-- What both loops leave alone. -/
structure SameSize (pool pool' : Pool) : Prop where
  minThreads : pool'.minThreads = pool.minThreads
  maxThreads : pool'.maxThreads = pool.maxThreads
  gradient : pool'.gradient = pool.gradient
  length : pool'.threads.length = pool.threads.length

theorem growRange_spec (count : Nat) {pool : Pool} (fits : pool.threads.length < 2 ^ 32)
    (flags : ∀ (i : Nat) (info : ThreadInfo), pool.threads[i]? = some info →
      (info.work = true ↔ i < pool.workingNum))
    (inside : pool.workingNum + count ≤ pool.threads.length) :
    ∃ pool', (List.range' pool.workingNum count).foldlM growAt pool = some pool' ∧
      SameSize pool pool' ∧ pool'.workingNum = pool.workingNum + count ∧
      ∀ (i : Nat) (info : ThreadInfo), pool'.threads[i]? = some info →
        (info.work = true ↔ i < pool'.workingNum) := by
  induction count generalizing pool with
  | zero => exact ⟨pool, rfl, ⟨rfl, rfl, rfl, rfl⟩, rfl, flags⟩
  | succ count ih =>
    have here : pool.threads[pool.workingNum]? = some pool.threads[pool.workingNum] :=
      List.getElem?_eq_getElem (by omega)
    have asleep : pool.threads[pool.workingNum].work = false := by
      have flag := flags _ _ here
      simpa using flag
    let woken : Pool := { setThread pool pool.workingNum
        { pool.threads[pool.workingNum] with work := true } with
      workingNum := wrap (pool.workingNum + 1) }
    have first : growAt pool pool.workingNum = some woken := by
      simp only [growAt, here, Option.bind_eq_bind, Option.bind_some, asleep, if_true, woken]
    have number : woken.workingNum = pool.workingNum + 1 := by
      simp only [woken, wrap]
      omega
    have size : woken.threads.length = pool.threads.length := List.length_set
    have wokenFlags : ∀ (i : Nat) (info : ThreadInfo), woken.threads[i]? = some info →
        (info.work = true ↔ i < woken.workingNum) := by
      intro i info found
      rw [number]
      by_cases same : pool.workingNum = i
      · subst same
        simp only [woken, setThread, List.getElem?_set_self (by omega : pool.workingNum <
          pool.threads.length), Option.some.injEq] at found
        rw [← found]
        simp
      · simp only [woken, setThread, List.getElem?_set_ne same] at found
        rw [flags i info found]
        omega
    obtain ⟨pool', rest, sizes, total, final⟩ := ih (by omega) wokenFlags (by omega)
    refine ⟨pool', ?_, ?_, by omega, final⟩
    · rw [List.range'_succ, List.foldlM_cons, first, ← number]
      exact rest
    · exact ⟨sizes.minThreads, sizes.maxThreads, sizes.gradient, sizes.length.trans size⟩

/-- A counter that went down `count` times is lower, or has wrapped around. -/
theorem wrap_lowered (counter count : Nat) (small : counter < 2 ^ 31) (few : count < 2 ^ 31) :
    wrap (counter + count * (2 ^ 32 - 1)) + count = counter ∨
      2 ^ 31 ≤ wrap (counter + count * (2 ^ 32 - 1)) := by
  by_cases enough : count ≤ counter
  · have total : counter + count * (2 ^ 32 - 1) = counter - count + count * 2 ^ 32 := by omega
    rw [total, wrap, Nat.add_mul_mod_self_right]
    omega
  · have total : counter + count * (2 ^ 32 - 1) =
        2 ^ 32 - (count - counter) + (count - 1) * 2 ^ 32 := by omega
    rw [total, wrap, Nat.add_mul_mod_self_right]
    omega

/-- Counting down for threads that are asleep: the flags stay, and the counter goes down. -/
theorem shrinkRange_spec (count first : Nat) {pool : Pool}
    (asleep : ∀ (i : Nat) (info : ThreadInfo), pool.threads[i]? = some info → first ≤ i →
      info.work = false)
    (inside : first + count ≤ pool.threads.length) :
    ∃ pool', (List.range' first count).foldlM shrinkAt pool = some pool' ∧ SameSize pool pool' ∧
      (pool.workingNum < 2 ^ 32 →
        pool'.workingNum = wrap (pool.workingNum + count * (2 ^ 32 - 1))) ∧
      ∀ (i : Nat) (info : ThreadInfo), pool.threads[i]? = some info →
        ∃ info', pool'.threads[i]? = some info' ∧ info'.work = info.work := by
  induction count generalizing pool first with
  | zero =>
    refine ⟨pool, rfl, ⟨rfl, rfl, rfl, rfl⟩, fun small => ?_,
      fun i info found => ⟨info, found, rfl⟩⟩
    rw [Nat.zero_mul, Nat.add_zero, wrap, Nat.mod_eq_of_lt small]
  | succ count ih =>
    have here : pool.threads[first]? = some pool.threads[first] :=
      List.getElem?_eq_getElem (by omega)
    let lowered : Pool := { setThread pool first { pool.threads[first] with work := false } with
      workingNum := wrap (pool.workingNum + (2 ^ 32 - 1)) }
    have step : shrinkAt pool first = some lowered := by
      simp only [shrinkAt, here, Option.bind_eq_bind, Option.bind_some, lowered]
    have size : lowered.threads.length = pool.threads.length := List.length_set
    have kept : ∀ (i : Nat) (info : ThreadInfo), pool.threads[i]? = some info →
        ∃ info', lowered.threads[i]? = some info' ∧ info'.work = info.work := by
      intro i info found
      by_cases same : first = i
      · subst same
        refine ⟨_, List.getElem?_set_self (by omega), ?_⟩
        rw [here] at found
        cases found
        exact (asleep first _ here (Nat.le_refl _)).symm
      · exact ⟨info, by simp only [lowered, setThread, List.getElem?_set_ne same, found], rfl⟩
    have asleep' : ∀ (i : Nat) (info : ThreadInfo), lowered.threads[i]? = some info →
        first + 1 ≤ i → info.work = false := by
      intro i info found later
      have apart : first ≠ i := by omega
      simp only [lowered, setThread, List.getElem?_set_ne apart] at found
      exact asleep i info found (by omega)
    obtain ⟨pool', rest, sizes, total, final⟩ := ih (first + 1) asleep' (by omega)
    refine ⟨pool', ?_, ?_, fun small => ?_, ?_⟩
    · rw [List.range'_succ, List.foldlM_cons, step]
      exact rest
    · exact ⟨sizes.minThreads, sizes.maxThreads, sizes.gradient, sizes.length.trans size⟩
    · have number : lowered.workingNum = wrap (pool.workingNum + (2 ^ 32 - 1)) := rfl
      have below : lowered.workingNum < 2 ^ 32 := Nat.mod_lt _ (by decide)
      have steps : pool.workingNum + (2 ^ 32 - 1) + count * (2 ^ 32 - 1) =
          pool.workingNum + (count + 1) * (2 ^ 32 - 1) := by omega
      rw [total below, number]
      simp only [wrap, Nat.mod_add_mod, steps]
    · intro i info found
      obtain ⟨info', found', same⟩ := kept i info found
      obtain ⟨info'', found'', same'⟩ := final i info' found'
      exact ⟨info'', found'', same'.trans same⟩

/-! ### One pass -/

section Pass
variable {pool : Pool} (sound : Sound pool) (fits : Fits pool)
include sound fits

/-- Growing wakes the next threads, at least one if there is one. -/
theorem grow_spec :
    ∃ pool', grow pool = some pool' ∧ SameSize pool pool' ∧ Sound pool' ∧
      pool.workingNum ≤ pool'.workingNum ∧
      (pool.workingNum < pool.threads.length → pool.workingNum < pool'.workingNum) := by
  obtain ⟨flags, least, most⟩ := sound
  obtain ⟨-, full, int, gradient, gradientInt⟩ := fits
  unfold grow
  by_cases idle : pool.threads.length > pool.workingNum
  · rw [if_pos idle]
    simp only
    generalize bounded : (if pool.threads.length - pool.workingNum > pool.gradient then
      wrap (pool.workingNum + pool.gradient) else pool.threads.length) = bound
    have within : pool.workingNum < bound ∧ bound ≤ pool.threads.length := by
      simp only [wrap] at bounded
      split at bounded <;> omega
    obtain ⟨pool', grown, sizes, total, flags'⟩ :=
      growRange_spec (bound - pool.workingNum) (by omega) flags (by omega)
    have length := sizes.length
    have minThreads := sizes.minThreads
    exact ⟨pool', grown, sizes, ⟨flags', by omega, by omega⟩, by omega, fun _ => by omega⟩
  · rw [if_neg idle]
    exact ⟨pool, rfl, ⟨rfl, rfl, rfl, rfl⟩, ⟨flags, least, most⟩, Nat.le_refl _,
      fun less => absurd less idle⟩

theorem shrink_range :
    ∃ count, shrink pool = (List.range' pool.workingNum count).foldlM shrinkAt pool ∧
      pool.workingNum + count ≤ pool.threads.length ∧
      (pool.workingNum < pool.threads.length → 0 < count) := by
  obtain ⟨-, -, most⟩ := sound
  obtain ⟨-, full, int, gradient, gradientInt⟩ := fits
  have signed : (BitVec.ofNat 32 pool.workingNum).toInt = pool.workingNum := by
    rw [BitVec.toInt_eq_toNat_of_lt] <;> rw [BitVec.toNat_ofNat] <;> omega
  refine ⟨_, rfl, ?_⟩
  simp only [signed, wrap]
  split <;> omega

/-- With every thread at work, shrinking does nothing. -/
theorem shrink_busy (busy : ¬pool.workingNum < pool.threads.length) : shrink pool = some pool := by
  obtain ⟨count, unfolded, inside, -⟩ := shrink_range sound fits
  have none : count = 0 := by omega
  rw [unfolded, none]
  rfl

/-- With idle threads, shrinking breaks the invariant. -/
theorem shrink_idle {pool' : Pool} (idle : pool.workingNum < pool.threads.length)
    (shrunk : shrink pool = some pool') : ¬Sound pool' := by
  obtain ⟨count, unfolded, inside, positive⟩ := shrink_range sound fits
  have counts := positive idle
  obtain ⟨flags, least, most⟩ := sound
  obtain ⟨-, full, int, gradient, gradientInt⟩ := fits
  have asleep : ∀ (i : Nat) (info : ThreadInfo), pool.threads[i]? = some info →
      pool.workingNum ≤ i → info.work = false := by
    intro i info found late
    have flag := flags i info found
    by_contra awake
    have early := flag.mp (by simpa using awake)
    omega
  obtain ⟨pool'', lowered, sizes, total, kept⟩ :=
    shrinkRange_spec count pool.workingNum asleep inside
  rw [unfolded, lowered, Option.some.injEq] at shrunk
  subst shrunk
  have number := total (by omega)
  rintro ⟨flags', least', most'⟩
  have length := sizes.length
  have less : pool''.workingNum < pool.workingNum := by
    have lowered := wrap_lowered pool.workingNum count (by omega) (by omega)
    rw [← number] at lowered
    omega
  have here : pool.threads[pool''.workingNum]? = some pool.threads[pool''.workingNum] :=
    List.getElem?_eq_getElem (by omega)
  obtain ⟨info', found', same⟩ := kept _ _ here
  have before := flags _ _ here
  have after := flags' _ _ found'
  rw [same] at after
  exact Nat.lt_irrefl _ (after.mp (before.mpr less))

end Pass

/-- A growing load does not shrink the pool too. -/
theorem not_shrinking {load temp : BitVec 32} (grows : growing load temp = true) (pool : Pool) :
    shrinking pool load temp = false := by
  simp only [growing, Bool.or_eq_true, Bool.and_eq_true, decide_eq_true_eq] at grows
  rw [← Bool.not_eq_true]
  intro shrinks
  simp only [shrinking, Bool.and_eq_true, decide_eq_true_eq] at shrinks
  obtain ⟨⟨⟨-, few⟩, less⟩, -⟩ := shrinks
  obtain ⟨-, more⟩ | many := grows
  · exact absurd less (BitVec.not_lt.mpr (BitVec.le_of_lt more))
  · omega

/-- What holds before a pass. -/
structure Held (loop : Scaling) : Prop where
  sound : Sound loop.pool
  fits : Fits loop.pool

theorem Fits.sameSize {pool pool' : Pool} (fits : Fits pool) (same : SameSize pool pool') :
    Fits pool' where
  least := by rw [same.minThreads]; exact fits.least
  most := by rw [same.length, same.maxThreads]; exact fits.most
  int := by rw [same.maxThreads]; exact fits.int
  gradient := by rw [same.gradient]; exact fits.gradient
  gradientInt := by rw [same.gradient]; exact fits.gradientInt

/-- New threads are asleep. -/
theorem create_held {pool : Pool} (sound : Sound pool) (fits : Fits pool) {num : Nat}
    (room : pool.threads.length + num ≤ pool.maxThreads) :
    Sound (createThreads num pool) ∧ Fits (createThreads num pool) ∧
      (createThreads num pool).workingNum = pool.workingNum := by
  obtain ⟨flags, least, most⟩ := sound
  rw [createThreads_asleep num pool (by omega)]
  refine ⟨⟨?_, least, ?_⟩, ⟨fits.least, ?_, fits.int, fits.gradient, fits.gradientInt⟩, rfl⟩
  · intro i info found
    by_cases old : i < pool.threads.length
    · simp only [List.getElem?_append_left old] at found
      exact flags i info found
    · simp only [List.getElem?_append_right (by omega : pool.threads.length ≤ i)] at found
      have new := List.eq_of_mem_replicate (List.mem_of_getElem? found)
      have late : ¬i < pool.workingNum := by omega
      simp [new, ThreadInfo.new, late]
  · simp only [List.length_append]
    omega
  · simp only [List.length_append, List.length_replicate]
    exact room

/-- A pass that does not shrink a pool with idle threads. -/
theorem pass_spec {loop : Scaling} (held : Held loop) {load : BitVec 32}
    (calm : ¬ShrinksIdle loop load) :
    ∃ next, scale loop load = some next ∧ Held next ∧
      loop.pool.workingNum ≤ next.pool.workingNum ∧
      (Grows loop load → loop.pool.workingNum < loop.pool.threads.length →
        loop.pool.workingNum < next.pool.workingNum) := by
  obtain ⟨sound, fits⟩ := held
  unfold scale
  simp only
  by_cases creates : loop.pool.maxThreads > loop.pool.threads.length
  · rw [if_pos creates]
    generalize counted : (if loop.pool.maxThreads - loop.pool.threads.length >
      loop.pool.minThreads then loop.pool.minThreads else
      loop.pool.maxThreads - loop.pool.threads.length) = num
    have room : loop.pool.threads.length + num ≤ loop.pool.maxThreads := by
      split at counted <;> omega
    obtain ⟨sound', fits', same⟩ := create_held sound fits room
    refine ⟨_, rfl, ⟨sound', fits'⟩, Nat.le_of_eq same.symm, ?_⟩
    rintro ⟨full, -⟩
    omega
  · rw [if_neg creates]
    by_cases grows : growing load (loop.temp.getD load) = true
    · obtain ⟨pool', grown, sizes, sound', more, most⟩ := grow_spec sound fits
      refine ⟨⟨pool', some load⟩, ?_, ⟨sound', fits.sameSize sizes⟩, more, fun _ => most⟩
      simp only [scaleUp, grows, if_true, grown, Option.bind_some, scaleDown,
        not_shrinking grows pool', Bool.false_eq_true, if_false, Option.map_some]
    · refine ⟨⟨loop.pool, some load⟩, ?_, ⟨sound, fits⟩, Nat.le_refl _, ?_⟩
      · have still : scaleDown load (loop.temp.getD load) loop.pool = some loop.pool := by
          unfold scaleDown
          split
          · next shrinks =>
            apply shrink_busy sound fits
            intro idle
            exact calm ⟨Nat.le_of_not_gt creates, shrinks, idle⟩
          · rfl
        simp only [scaleUp, grows, Bool.false_eq_true, if_false, Option.bind_some, still,
          Option.map_some]
      · rintro ⟨-, grows'⟩
        exact absurd grows' grows

theorem pass_iff {loop : Scaling} (held : Held loop) (load : BitVec 32) :
    PassSound loop load ↔ ¬ShrinksIdle loop load := by
  constructor
  · rintro ⟨next, taken, sound', -⟩ ⟨full, shrinks, idle⟩
    have steady : ¬growing load (loop.temp.getD load) = true := by
      intro grows
      rw [not_shrinking grows] at shrinks
      cases shrinks
    unfold scale at taken
    simp only [if_neg (Nat.not_lt.mpr full), scaleUp, steady, Bool.false_eq_true, if_false,
      Option.bind_some, scaleDown, shrinks, if_true, Option.map_eq_some_iff] at taken
    obtain ⟨pool', shrunk, rfl⟩ := taken
    exact shrink_idle held.sound held.fits idle shrunk sound'
  · intro calm
    obtain ⟨next, taken, held', more, most⟩ := pass_spec held calm
    exact ⟨next, taken, held'.sound, fun fewer => absurd fewer (Nat.not_lt.mpr more), most⟩

theorem pass_held {loop next : Scaling} {load : BitVec 32} (held : Held loop)
    (passes : PassSound loop load) (taken : scale loop load = some next) : Held next := by
  obtain ⟨next', taken', held', -⟩ := pass_spec held ((pass_iff held load).mp passes)
  rw [taken] at taken'
  cases taken'
  exact held'

/-- The loop of a pool after `init` and `start(true)`. -/
def started (maxThreads minThreads gradient : Nat) : Scaling :=
  ⟨start true (init maxThreads minThreads gradient false), none⟩

theorem started_held {maxThreads minThreads gradient : Nat} (least : 1 ≤ minThreads)
    (ordered : minThreads ≤ maxThreads) (int : maxThreads < 2 ^ 31) (positive : 1 ≤ gradient)
    (gradientInt : gradient < 2 ^ 31) : Held (started maxThreads minThreads gradient) := by
  have fewer : (if maxThreads > minThreads then minThreads else maxThreads) = minThreads := by
    split <;> omega
  have given : (if maxThreads < minThreads then 1 else gradient) = gradient :=
    if_neg (Nat.not_lt.mpr ordered)
  have pool : (started maxThreads minThreads gradient).pool =
      { init maxThreads minThreads gradient false with
        workingNum := minThreads
        threads := (List.range' 0 minThreads).map fun w => .new (decide (w < minThreads)) } := by
    have created := createThreads_eq minThreads (init maxThreads minThreads gradient false)
      (by simp [init, Pool.new]) (by simp only [init]; omega)
    simp only [init, Pool.new, List.length_nil, Nat.zero_add, List.nil_append, Nat.min_self]
      at created
    change createThreads (if maxThreads > minThreads then minThreads else maxThreads)
      (init maxThreads minThreads gradient false) = _
    rw [fewer]
    exact created
  constructor
  · rw [pool]
    refine ⟨?_, Nat.le_refl _, by simp⟩
    intro i info found
    simp only [List.getElem?_map, Option.map_eq_some_iff] at found
    obtain ⟨w, here, rfl⟩ := found
    obtain ⟨inside, rfl⟩ := List.getElem?_eq_some_iff.mp here
    simp [ThreadInfo.new]
  · rw [pool]
    simp only [init, given]
    exact ⟨least, by simpa using ordered, int, positive, gradientInt⟩

/-- For every sequence of loads: each pass keeps the first `m_working_num` threads, and no
others, at work and does what it should to their number, if and only if no pass shrinks the
pool while it has idle threads. -/
theorem sound_iff_never_shrinks_idle (maxThreads minThreads gradient : Nat)
    (least : 1 ≤ minThreads) (ordered : minThreads ≤ maxThreads) (int : maxThreads < 2 ^ 31)
    (positive : 1 ≤ gradient) (gradientInt : gradient < 2 ^ 31) (loads : List (BitVec 32)) :
    Throughout scale PassSound (started maxThreads minThreads gradient) loads ↔
      Throughout scale (fun loop load => ¬ShrinksIdle loop load)
        (started maxThreads minThreads gradient) loads :=
  throughout_congr Held (fun _ _ _ held passes taken => pass_held held passes taken)
    (fun _ load held => pass_iff held load)
    (started_held least ordered int positive gradientInt) loads

instance (loop : Scaling) (load : BitVec 32) : Decidable (ShrinksIdle loop load) :=
  inferInstanceAs (Decidable (_ ∧ _ ∧ _))

/-- One thread, two more created asleep, and one of them woken. -/
theorem sound_iff_never_shrinks_idle_growing :
    Throughout scale PassSound (started 3 1 1) [0, 0, 10] :=
  (sound_iff_never_shrinks_idle 3 1 1 (by decide) (by decide) (by decide) (by decide) (by decide)
    [0, 0, 10]).mpr (by decide)

/-- When the load falls again, the counter is lowered for a thread that is asleep, and two
threads work where the counter says one. -/
theorem shrinks_to_wrong_count :
    ∃ loop, run scale (started 3 1 1) [0, 0, 10, 0] = some loop ∧ ¬Sound loop.pool := by
  have ends : (run scale (started 3 1 1) [0, 0, 10, 0]).map
      (fun loop => (loop.pool.workingNum, (loop.pool.threads[1]?).map (·.work))) =
        some (1, some true) := by decide
  obtain ⟨loop, reached, same⟩ := Option.map_eq_some_iff.mp ends
  obtain ⟨number, second⟩ := Prod.mk.inj same
  refine ⟨loop, reached, fun sound => ?_⟩
  obtain ⟨info, here, awake⟩ := Option.map_eq_some_iff.mp second
  have early := (sound.flags 1 info here).mp awake
  omega

end SNFrame.System.Scaling
