/-!
Contract: lengths of time, held as whole seconds below `2 ^ 64` and a remainder of nanoseconds.

Owns: the carry of the sum, the borrow of the difference, the order, the cap at the longest
representable length, and the written form of a length.

Does not own: points in time (`Correlator.Time.Moment`) and clocks (`Correlator.Time.Clock`).
-/

set_option autoImplicit false

namespace Correlator

/-- The number of nanoseconds in a second. -/
abbrev nanosPerSecond : Nat := 1000000000

/-- A length of time: whole seconds and the nanoseconds that do not fill another second. -/
structure Span where
  seconds : Nat
  nanos : Nat
  seconds_lt : seconds < 0x10000000000000000
  nanos_lt : nanos < nanosPerSecond
deriving DecidableEq, Repr

namespace Span

/-- The length in nanoseconds, without any cap. -/
def toNanos (span : Span) : Nat := span.seconds * nanosPerSecond + span.nanos

def zero : Span := ⟨0, 0, by decide, by decide⟩

/-- The longest representable length. -/
def longest : Span := ⟨0x10000000000000000 - 1, nanosPerSecond - 1, by decide, by decide⟩

instance : Inhabited Span := ⟨zero⟩

/-- The length of the given number of milliseconds. -/
def ofMillis (millis : UInt64) : Span :=
  ⟨millis.toNat / 1000, millis.toNat % 1000 * 1000000,
    Nat.lt_of_le_of_lt (Nat.div_le_self _ _) millis.toNat_lt, by
      have small := Nat.mod_lt millis.toNat (show 0 < 1000 by decide)
      unfold nanosPerSecond
      omega⟩

/-- The length with these limbs, if both are in range. -/
def ofLimbs? (seconds nanos : Nat) : Option Span :=
  if limbs : seconds < 0x10000000000000000 ∧ nanos < nanosPerSecond then
    some ⟨seconds, nanos, limbs.1, limbs.2⟩
  else
    none

def isZero (span : Span) : Bool := span.seconds == 0 && span.nanos == 0

/-- The sum; full seconds among the nanoseconds carry over, and a sum beyond the longest length
is the longest length. -/
def add (left right : Span) : Span :=
  let nanos := left.nanos + right.nanos
  let seconds := left.seconds + right.seconds + nanos / nanosPerSecond
  if inRange : seconds < 0x10000000000000000 then
    ⟨seconds, nanos % nanosPerSecond, inRange, Nat.mod_lt _ (by decide)⟩
  else
    longest

instance : Add Span := ⟨add⟩

/-- The difference, borrowing a second where the nanoseconds need one; none if it would be
negative. -/
def sub? (left right : Span) : Option Span :=
  let borrow := if left.nanos < right.nanos then 1 else 0
  if fits : right.seconds + borrow ≤ left.seconds then
    some ⟨left.seconds - (right.seconds + borrow),
      left.nanos + borrow * nanosPerSecond - right.nanos,
      Nat.lt_of_le_of_lt (Nat.sub_le _ _) left.seconds_lt, by
        have leftSmall := left.nanos_lt
        simp only [borrow]
        split <;> omega⟩
  else
    none

/-- Lengths are ordered by seconds, and lengths of equally many seconds by nanoseconds. -/
def le (left right : Span) : Prop :=
  left.seconds < right.seconds ∨ (left.seconds = right.seconds ∧ left.nanos ≤ right.nanos)

instance : LE Span := ⟨le⟩

instance (left right : Span) : Decidable (left ≤ right) :=
  inferInstanceAs (Decidable (_ ∨ _))

def shorter (left right : Span) : Span := if left ≤ right then left else right

/-- The digits of `part / 10 ^ width` behind the point, without trailing zeros. -/
def fractionDigits (part width : Nat) : List Char :=
  (((Nat.toDigits 10 part).leftpad width '0').reverse.dropWhile (· == '0')).reverse

/-- A whole number, and a fraction where there is one. -/
def decimalText (whole part width : Nat) : String :=
  let digits := fractionDigits part width
  if digits.isEmpty then toString whole else toString whole ++ "." ++ String.ofList digits

/-- The written form: the exact value in the largest of the units s, ms, µs and ns that the length
reaches. -/
def text (span : Span) : String :=
  if 0 < span.seconds then decimalText span.seconds span.nanos 9 ++ "s"
  else if 1000000 ≤ span.nanos then
    decimalText (span.nanos / 1000000) (span.nanos % 1000000) 6 ++ "ms"
  else if 1000 ≤ span.nanos then decimalText (span.nanos / 1000) (span.nanos % 1000) 3 ++ "µs"
  else toString span.nanos ++ "ns"

/-- A length in each of the units, with and without a fraction. -/
example :
    [Span.ofMillis 61500, Span.ofMillis 10, ⟨0, 1234567, by decide, by decide⟩,
      ⟨0, 1500, by decide, by decide⟩, Span.zero].map Span.text
      = ["61.5s", "10ms", "1.234567ms", "1.5µs", "0ns"] := by
  decide +kernel

end Span

end Correlator
