import Correlator.Time.Clock

/-!
Contract: points in time as numbers of nanoseconds.

Owns: the order of points and the later one of two, and what the checked shifts do to them.

Does not own: which clock shows which point (`Correlator.Proofs.Client.Clock`).
-/

set_option autoImplicit false

namespace Correlator

namespace Moment

variable {moment shifted left right : Moment} {span : Span}

theorem lt_iff_toNanos_lt : left < right ↔ left.toNanos < right.toNanos := by
  change left.seconds < right.seconds ∨ (left.seconds = right.seconds ∧ left.nanos < right.nanos)
    ↔ _
  have leftNanos := left.nanos_lt
  have rightNanos := right.nanos_lt
  simp only [toNanos, nanosPerSecond] at *
  omega

/-- The later one of two points. -/
def later (left right : Moment) : Moment := if left < right then right else left

theorem lt_later_iff : moment < left.later right ↔ moment < left ∨ moment < right := by
  unfold later
  simp only [lt_iff_toNanos_lt]
  split
  · omega
  · omega

private theorem toNanos_of_ofLimbs? {seconds : Int} {nanos : Nat} {below : nanos < nanosPerSecond}
    (made : ofLimbs? seconds nanos below = some shifted) :
    shifted.toNanos = seconds * nanosPerSecond + nanos := by
  unfold ofLimbs? at made
  split at made
  · cases made
    rfl
  · cases made

theorem toNanos_of_after? (made : moment.after? span = some shifted) :
    shifted.toNanos = moment.toNanos + span.toNanos := by
  have limbs := toNanos_of_ofLimbs? made
  simp only [toNanos, Span.toNanos, nanosPerSecond] at *
  omega

theorem toNanos_of_before? (made : moment.before? span = some shifted) :
    shifted.toNanos = moment.toNanos - span.toNanos := by
  have nanos := span.nanos_lt
  unfold before? at made
  split at made
  next borrows =>
    have limbs := toNanos_of_ofLimbs? made
    simp only [toNanos, Span.toNanos, nanosPerSecond] at *
    omega
  next covers =>
    have limbs := toNanos_of_ofLimbs? made
    simp only [toNanos, Span.toNanos, nanosPerSecond] at *
    omega

end Moment

end Correlator
