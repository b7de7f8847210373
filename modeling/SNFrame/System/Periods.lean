import Mathlib.Data.List.Nodup
import Mathlib.Data.List.Range
import SNFrame.Core.Timer

/-! Timers and their periods. Each tick calls every callback in the list; the period that was
registered with it is stored and never read. -/

namespace SNFrame.System.Periods
open Core.Timer

variable {Callback : Type}

/-- How often the timer at this place of the list has been called. -/
def calls (place : Nat) (history : History Callback) : Nat :=
  history.called.countP fun call => call.1 == place

/-- The ticks among the events. -/
def ticks (events : List (Event Callback)) : Nat :=
  events.countP fun | .serverCron => true | _ => false

/-- What a run keeps: no call has been made for a place behind the list. -/
def Placed (history : History Callback) : Prop :=
  ∀ call ∈ history.called, call.1 < history.timer.m_timers.length

section Ticks
variable {history : History Callback} {place : Nat}

/-- A tick calls every timer of the list once. -/
theorem serverCron_calls (timer : Timer Callback) (inside : place < timer.m_timers.length) :
    timer.serverCron.2.countP (fun call => call.1 == place) = 1 := by
  have places : timer.serverCron.2.map Prod.fst = List.range timer.m_timers.length := by
    simp [Timer.serverCron, List.map_map, Function.comp_def, List.range_eq_range']
  calc timer.serverCron.2.countP (fun call => call.1 == place)
    _ = (timer.serverCron.2.map Prod.fst).countP (· == place) := by rw [List.countP_map]; rfl
    _ = (List.range timer.m_timers.length).count place := by rw [places, List.count]
    _ = 1 := by rw [List.count_eq_one_of_mem List.nodup_range (List.mem_range.mpr inside)]

theorem step_length (event : Event Callback) :
    history.timer.m_timers.length ≤ (step history event).timer.m_timers.length := by
  cases event <;> simp [step, Timer.addTimer, addTimer, Timer.serverCron]

theorem step_calls (event : Event Callback) (inside : place < history.timer.m_timers.length) :
    calls place (step history event) = calls place history + ticks [event] := by
  cases event with
  | addTimer cb sec => rfl
  | publicAddTimer cb sec => rfl
  | serverCron =>
    simp only [calls, step, List.countP_append, serverCron_calls history.timer inside]
    rfl

/-- A timer in the list is called once in every tick. -/
theorem runs_calls (events : List (Event Callback))
    (inside : place < history.timer.m_timers.length) :
    calls place (runs history events) = calls place history + ticks events := by
  induction events generalizing history with
  | nil => rfl
  | cons event events ih =>
    have later := ih (Nat.lt_of_lt_of_le inside (step_length event))
    have counted : ticks (event :: events) = ticks [event] + ticks events := by
      simp only [ticks, ← List.countP_append, List.singleton_append]
    rw [runs, List.foldl_cons, ← runs, later, step_calls event inside, counted, Nat.add_assoc]

theorem step_placed (placed : Placed history) (event : Event Callback) :
    Placed (step history event) := by
  intro call called
  cases event with
  | addTimer cb sec =>
    exact Nat.lt_of_lt_of_le (placed call called) (step_length (.addTimer cb sec))
  | publicAddTimer cb sec =>
    exact Nat.lt_of_lt_of_le (placed call called) (step_length (.publicAddTimer cb sec))
  | serverCron =>
    rcases List.mem_append.mp called with before | now
    · exact placed call before
    · obtain ⟨each, listed, rfl⟩ := List.mem_map.mp now
      simpa [step, Timer.serverCron] using List.snd_lt_of_mem_zipIdx listed

theorem runs_placed (placed : Placed history) (events : List (Event Callback)) :
    Placed (runs history events) := by
  induction events generalizing history with
  | nil => exact placed
  | cons event events ih => exact ih (step_placed placed event)

/-- A timer that is about to be registered has not been called. -/
theorem calls_registered (placed : Placed history) (cb : Callback) (sec : Int) :
    calls history.timer.m_timers.length (step history (.addTimer cb sec)) = 0 := by
  apply List.countP_eq_zero.mpr
  intro call called
  have := placed call called
  simp only [beq_iff_eq]
  omega

end Ticks

/-- Timers respect their period only as far as one second goes: the timer registered after the
events `before` has been called once for each full period in the ticks since then if and only if
there has been no tick or its period is one second. -/
theorem calls_eq_periods_iff (before after : List (Event Callback)) (cb : Callback) (sec : Int)
    (registration : Event Callback)
    (registers : registration = .addTimer cb sec ∨ registration = .publicAddTimer cb sec)
    (positive : 1 ≤ sec) :
    let place := (runs .fresh before).timer.m_timers.length
    (calls place (runs .fresh (before ++ registration :: after)) : Int) = ticks after / sec ↔
      ticks after = 0 ∨ sec = 1 := by
  intro place
  have same : step (runs .fresh before) registration =
      step (runs .fresh before) (.addTimer cb sec) := by
    rcases registers with rfl | rfl <;> rfl
  have placed : Placed (runs (.fresh : History Callback) before) :=
    runs_placed (fun _ called => absurd called List.not_mem_nil) before
  have inside : place < (step (runs .fresh before) (.addTimer cb sec)).timer.m_timers.length := by
    simp [place, step, Timer.addTimer]
  have counted : calls place (runs .fresh (before ++ registration :: after)) = ticks after := by
    rw [runs, List.foldl_append, List.foldl_cons, ← runs, ← runs, same, runs_calls after inside,
      calls_registered placed cb sec, Nat.zero_add]
  rw [counted]
  obtain ⟨period, rfl⟩ := Int.eq_ofNat_of_zero_le (by omega : 0 ≤ sec)
  have full : (ticks after : Int) = ticks after / (period : Int) ↔
      ticks after / period = ticks after := by
    rw [eq_comm]
    norm_cast
  rw [full, Nat.div_eq_self]
  norm_cast

/-- A timer of two seconds after one tick. -/
theorem calls_eq_periods_iff_two_seconds :
    (calls 0 (runs .fresh [.addTimer () 2, .serverCron]) : Int) = (1 : Nat) / 2 ↔
      (1 : Nat) = 0 ∨ (2 : Int) = 1 :=
  calls_eq_periods_iff [] [.serverCron] () 2 (.addTimer () 2) (.inl rfl) (by decide)

/-- It has been called, though no two seconds are over. -/
theorem two_seconds_called_early :
    ¬(calls 0 (runs .fresh [.addTimer () 2, .serverCron]) : Int) =
      ticks [(.serverCron : Event Unit)] / 2 := by
  decide

end SNFrame.System.Periods
