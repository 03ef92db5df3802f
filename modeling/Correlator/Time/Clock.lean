import Correlator.Time.Moment

/-!
Contract: the clocks a client can read and sleep on.

Owns: the virtual clock, which moves only when it is told to, and the running clock, which also
moves by itself.

Does not own: which clock a client uses (`Correlator.Client.Basic`), or clock handles that share a
clock (`Correlator.Time.ClockShelf`).
-/

set_option autoImplicit false

namespace Correlator

/-- A clock that moves only by `advance` and `sleep`: the time elapsed since the origin, and how
often it was slept on. -/
structure VirtualClock where
  elapsed : Span := .zero
  sleeps : UInt64 := 0
deriving DecidableEq, Repr

instance : Inhabited VirtualClock := ⟨{}⟩

namespace VirtualClock

/-- Moves the clock forward; the elapsed time stays at the longest length once it is reached. -/
def advance (clock : VirtualClock) (span : Span) : VirtualClock :=
  { clock with elapsed := clock.elapsed + span }

/-- Sleeping moves the clock forward without waiting, and is counted. -/
def sleep (clock : VirtualClock) (span : Span) : VirtualClock :=
  { elapsed := clock.elapsed + span, sleeps := clock.sleeps + 1 }

/-- What the clock shows if it began at the given point; none once that leaves the representable
range. -/
def nowFrom? (clock : VirtualClock) (start : Moment) : Option Moment := start.after? clock.elapsed

/-- The present point in time, counted from the origin. -/
def now? (clock : VirtualClock) : Option Moment := clock.nowFrom? .origin

end VirtualClock

/-- A clock of real time: it also moves between any two readings. -/
structure RunningClock where
  elapsed : Span := .zero
deriving DecidableEq, Repr

namespace RunningClock

/-- The least time that passes between two readings: a microsecond. -/
def tick : Span := ⟨0, 1000, Span.zero.seconds_lt, by decide⟩

/-- Reading the clock: time has moved on since the last reading. -/
def read (clock : RunningClock) : Option Moment × RunningClock :=
  let elapsed := clock.elapsed + tick
  (Moment.origin.after? elapsed, ⟨elapsed⟩)

/-- Sleeping takes at least the given length. -/
def sleep (clock : RunningClock) (span : Span) : RunningClock := ⟨clock.elapsed + span⟩

/-- The longest sleep that is tried out. -/
def longestTrial : Span := .ofMillis 20

/-- Whether the clock moves on by at least the length of a sleep that is tried out: the given length,
or that of the longest trial if it is less. -/
def sleepsAtLeast (clock : RunningClock) (span : Span) : Bool :=
  let span := span.shorter longestTrial
  match clock.read with
  | (some started, running) =>
    match (running.sleep span).read with
    | (some ended, _) => decide (span ≤ ended.since started)
    | (none, _) => false
  | (none, _) => false

end RunningClock

end Correlator
