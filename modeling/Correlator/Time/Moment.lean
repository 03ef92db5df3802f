import Correlator.Time.Span

/-!
Contract: points in time, counted from an origin in signed seconds and a remainder of nanoseconds.

Owns: the range of representable points (seconds fit a signed 64-bit word), the checked shifts by a
length, the distance between two points, and the order.

Does not own: lengths of time (`Correlator.Time.Span`) and what the present point is
(`Correlator.Time.Clock`).
-/

set_option autoImplicit false

namespace Correlator

/-- A point in time relative to the origin: the last full second before it, and the nanoseconds
since that second. -/
structure Moment where
  seconds : Int
  nanos : Nat
  le_seconds : -0x8000000000000000 ≤ seconds
  seconds_lt : seconds < 0x8000000000000000
  nanos_lt : nanos < nanosPerSecond
deriving Repr

namespace Moment

/-- Two points are equal exactly when their seconds and nanoseconds are. -/
theorem ext_iff (left right : Moment) :
    left = right ↔ left.seconds = right.seconds ∧ left.nanos = right.nanos := by
  cases left
  cases right
  simp

instance : DecidableEq Moment := fun left right => decidable_of_iff _ (ext_iff left right).symm

/-- The nanoseconds since the origin, negative before it. -/
def toNanos (moment : Moment) : Int := moment.seconds * nanosPerSecond + moment.nanos

/-- The point from which time is counted. -/
def origin : Moment := ⟨0, 0, by decide, by decide, Span.zero.nanos_lt⟩

instance : Inhabited Moment := ⟨origin⟩

/-- The point with these limbs, if the seconds are in range. -/
def ofLimbs? (seconds : Int) (nanos : Nat) (nanos_lt : nanos < nanosPerSecond) : Option Moment :=
  if inRange : -0x8000000000000000 ≤ seconds ∧ seconds < 0x8000000000000000 then
    some ⟨seconds, nanos, inRange.1, inRange.2, nanos_lt⟩
  else
    none

/-- The point that lies `span` after this one; none beyond the representable range. -/
def after? (moment : Moment) (span : Span) : Option Moment :=
  let nanos := moment.nanos + span.nanos
  ofLimbs? (moment.seconds + span.seconds + (nanos / nanosPerSecond : Nat))
    (nanos % nanosPerSecond) (Nat.mod_lt _ (by decide))

/-- The point that lies `span` before this one; none beyond the representable range. -/
def before? (moment : Moment) (span : Span) : Option Moment :=
  if borrows : moment.nanos < span.nanos then
    ofLimbs? (moment.seconds - span.seconds - 1) (moment.nanos + nanosPerSecond - span.nanos)
      (by have := span.nanos_lt; omega)
  else
    ofLimbs? (moment.seconds - span.seconds) (moment.nanos - span.nanos)
      (by have := moment.nanos_lt; omega)

/-- Points are ordered by seconds, and points in one second by nanoseconds. -/
def lt (left right : Moment) : Prop :=
  left.seconds < right.seconds ∨ (left.seconds = right.seconds ∧ left.nanos < right.nanos)

instance : LT Moment := ⟨lt⟩

instance (left right : Moment) : Decidable (left < right) :=
  inferInstanceAs (Decidable (_ ∨ _))

/-- The time that passed from `earlier` to `later`; nothing if `earlier` is the later one. -/
def since (later earlier : Moment) : Span :=
  if later < earlier then .zero
  else if borrows : later.nanos < earlier.nanos then
    ⟨(later.seconds - earlier.seconds - 1).toNat,
      later.nanos + nanosPerSecond - earlier.nanos,
      by have := later.seconds_lt; have := earlier.le_seconds; omega,
      by have := earlier.nanos_lt; omega⟩
  else
    ⟨(later.seconds - earlier.seconds).toNat, later.nanos - earlier.nanos,
      by have := later.seconds_lt; have := earlier.le_seconds; omega,
      by have := later.nanos_lt; omega⟩

end Moment

end Correlator
