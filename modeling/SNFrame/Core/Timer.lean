import Mathlib.Data.List.Basic

/-! The class Timer: the list of callbacks, and `serverCron`, which libevent calls once a
second. -/

namespace SNFrame.Core.Timer

/-- The struct `tm_t`. -/
structure Tm (Callback : Type) where
  cb : Callback
  sec : Int
  deriving DecidableEq

variable {Callback : Type}

/-- The statics: the list, and `_init`, which tells whether the first tick has slept its two
seconds. -/
structure Timer (Callback : Type) where
  m_timers : List (Tm Callback)
  init : Bool

def Timer.fresh : Timer Callback := ⟨[], false⟩

/-- `Timer::addTimer`. -/
def Timer.addTimer (timer : Timer Callback) (cb : Callback) (sec : Int) : Timer Callback :=
  { timer with m_timers := timer.m_timers ++ [⟨cb, sec⟩] }

/-- The `addTimer` of Service.h, which applications call. -/
def addTimer (timer : Timer Callback) (cb : Callback) (sec : Int) : Timer Callback :=
  timer.addTimer cb sec

/-- `Timer::serverCron`, with the callbacks that it calls, each with the place of its timer in
the list. -/
def Timer.serverCron (timer : Timer Callback) : Timer Callback × List (Nat × Callback) :=
  ({ timer with init := true }, timer.m_timers.zipIdx.map fun each => (each.2, each.1.cb))

/-! ### Runs of the timer -/

inductive Event (Callback : Type) where
  | addTimer (cb : Callback) (sec : Int)
  | publicAddTimer (cb : Callback) (sec : Int)
  | serverCron

/-- The timer and the calls that it has made so far, in order. -/
structure History (Callback : Type) where
  timer : Timer Callback
  called : List (Nat × Callback)

def History.fresh : History Callback := ⟨.fresh, []⟩

def step (history : History Callback) : Event Callback → History Callback
  | .addTimer cb sec => { history with timer := history.timer.addTimer cb sec }
  | .publicAddTimer cb sec => { history with timer := addTimer history.timer cb sec }
  | .serverCron =>
      let (timer, calls) := history.timer.serverCron
      ⟨timer, history.called ++ calls⟩

def runs (history : History Callback) (events : List (Event Callback)) : History Callback :=
  events.foldl step history

end SNFrame.Core.Timer
