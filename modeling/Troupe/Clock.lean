/-!
Logical time and the run state of a configuration.

Time is a count of milliseconds that moves only when it is told to. It is kept in 64 bits: sums stop
at the largest time (`Millis.after`).
-/

namespace Troupe

/-- A point in logical time, or a length of it, in milliseconds. -/
abbrev Millis := Nat

namespace Millis

/-- The last point in time. -/
def last : Millis := UInt64.size - 1

/-- The time `delay` after `t`, or the last time if that lies beyond it. -/
def after (t delay : Millis) : Millis := min (t + delay) last

end Millis

/-- The clock of a configuration: the current time and the number of ticks so far. -/
structure Clock where
  now : Millis := 0
  ticks : Nat := 0
deriving DecidableEq, Repr

namespace Clock

/-- Moves time forward by `ms`. -/
def advance (c : Clock) (ms : Millis) : Clock := { c with now := Millis.after c.now ms }

/-- Moves time forward to `time`; it never moves back. -/
def advanceTo (c : Clock) (time : Millis) : Clock := { c with now := max c.now time }

/-- Counts one tick. -/
def recordTick (c : Clock) : Clock := { c with ticks := c.ticks + 1 }

end Clock

/-- Whether ticks drive the configuration, and at which period. -/
inductive RunState where
  /-- Ticks do nothing. -/
  | halted
  /-- Every tick dispatches a batch. -/
  | running (period : Millis)
  /-- Nothing is left to do; the next send goes on with the same period. -/
  | paused (period : Millis)
deriving DecidableEq, Repr

namespace RunState

/-- Ticks dispatch work. -/
def isRunning : RunState → Bool
  | running _ => true
  | _ => false

/-- The run waits for a send. -/
def isPaused : RunState → Bool
  | paused _ => true
  | _ => false

/-- The period of a running or paused run. -/
def period? : RunState → Option Millis
  | halted => none
  | running p => some p
  | paused p => some p

/-- Stops a running run until it is resumed. -/
def pause : RunState → RunState
  | running p => paused p
  | s => s

/-- Continues a paused run. -/
def resume : RunState → RunState
  | paused p => running p
  | s => s

end RunState

end Troupe
