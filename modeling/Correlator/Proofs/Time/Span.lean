import Correlator.Proofs.Time.Moment

/-!
Contract: the arithmetic of lengths of time, in nanoseconds.

Owns: what the operations on lengths come to as numbers, with the cap at the longest length, the distance of two
points, up to which elapsed time a clock can be read, and from which length on no point lies that much earlier.

Does not own: the order of points and the checked shifts (`Correlator.Proofs.Time.Moment`).
-/

set_option autoImplicit false

namespace Correlator

namespace Span

variable {left right : Span}

theorem toNanos_add (left right : Span) :
    (left + right).toNanos = min (left.toNanos + right.toNanos) longest.toNanos := by
  have leftNanos := left.nanos_lt
  have rightNanos := right.nanos_lt
  change (left.add right).toNanos = _
  unfold add
  dsimp only
  split
  next inRange =>
    simp only [nanosPerSecond] at inRange
    simp only [toNanos, longest, nanosPerSecond] at *
    omega
  next beyond =>
    simp only [toNanos, longest, nanosPerSecond] at *
    omega

theorem le_iff_toNanos_le : left ≤ right ↔ left.toNanos ≤ right.toNanos := by
  change left.seconds < right.seconds ∨ (left.seconds = right.seconds ∧ left.nanos ≤ right.nanos)
    ↔ _
  have leftNanos := left.nanos_lt
  have rightNanos := right.nanos_lt
  simp only [toNanos, nanosPerSecond] at *
  omega

theorem toNanos_inj : left.toNanos = right.toNanos ↔ left = right := by
  refine ⟨fun same => ?_, congrArg toNanos⟩
  have leftNanos := left.nanos_lt
  have rightNanos := right.nanos_lt
  obtain ⟨seconds, nanos⟩ : left.seconds = right.seconds ∧ left.nanos = right.nanos := by
    simp only [toNanos, nanosPerSecond] at *
    omega
  cases left
  cases right
  cases seconds
  cases nanos
  rfl

theorem toNanos_shorter (left right : Span) :
    (left.shorter right).toNanos = min left.toNanos right.toNanos := by
  unfold shorter
  split
  next less => exact (Nat.min_eq_left (le_iff_toNanos_le.mp less)).symm
  next more =>
    rw [le_iff_toNanos_le] at more
    omega

theorem toNanos_le_longest (span : Span) : span.toNanos ≤ longest.toNanos := by
  have seconds := span.seconds_lt
  have nanos := span.nanos_lt
  simp only [toNanos, longest, nanosPerSecond] at *
  omega

/-- An addition makes no length shorter, even where it is cut off at the longest length. -/
theorem toNanos_le_add (left right : Span) : left.toNanos ≤ (left + right).toNanos := by
  have short := left.toNanos_le_longest
  rw [toNanos_add]
  omega

theorem isZero_iff {span : Span} : span.isZero = true ↔ span.toNanos = 0 := by
  simp only [isZero, toNanos, nanosPerSecond, Bool.and_eq_true, beq_iff_eq]
  omega

theorem toNanos_ofMillis (value : UInt64) : (ofMillis value).toNanos = value.toNat * 1000000 := by
  simp only [ofMillis, toNanos, nanosPerSecond]
  omega

theorem isZero_ofMillis (value : UInt64) : (ofMillis value).isZero = (value == 0) := by
  rw [Bool.eq_iff_iff, isZero_iff, toNanos_ofMillis, beq_iff_eq, ← UInt64.toNat_inj]
  exact Nat.mul_eq_zero.trans (or_iff_left (by decide))

/-- A difference is what is left, and there is none just if it would be negative. -/
theorem sub?_spec (left right : Span) :
    match left.sub? right with
    | some rest => rest.toNanos + right.toNanos = left.toNanos
    | none => left.toNanos < right.toNanos := by
  have leftNanos := left.nanos_lt
  have rightNanos := right.nanos_lt
  unfold sub?
  by_cases borrows : left.nanos < right.nanos
  · simp only [if_pos borrows]
    by_cases fits : right.seconds + 1 ≤ left.seconds
    · rw [dif_pos fits]
      simp only [toNanos, nanosPerSecond] at *
      omega
    · rw [dif_neg fits]
      simp only [toNanos, nanosPerSecond] at *
      omega
  · simp only [if_neg borrows]
    by_cases fits : right.seconds + 0 ≤ left.seconds
    · rw [dif_pos fits]
      simp only [toNanos, nanosPerSecond] at *
      omega
    · rw [dif_neg fits]
      simp only [toNanos, nanosPerSecond] at *
      omega

end Span

namespace Moment

/-- The points before this time since the origin can be shown. -/
def range : Nat := 0x8000000000000000 * nanosPerSecond

theorem range_le_longest : range ≤ Span.longest.toNanos := by
  simp only [range, Span.longest, Span.toNanos, nanosPerSecond]
  omega

theorem origin_after?_eq_none {span : Span} :
    origin.after? span = none ↔ range ≤ span.toNanos := by
  have nanos := span.nanos_lt
  have whole : (Moment.origin.nanos + span.nanos) / nanosPerSecond = 0 := by
    rw [show Moment.origin.nanos + span.nanos = span.nanos from Nat.zero_add _]
    exact Nat.div_eq_of_lt nanos
  unfold after? ofLimbs?
  dsimp only
  rw [whole, show Moment.origin.seconds = 0 from rfl]
  split
  next inRange =>
    simp only [origin, range, Span.toNanos, nanosPerSecond, reduceCtorEq, false_iff] at *
    omega
  next beyond =>
    simp only [origin, range, Span.toNanos, nanosPerSecond, true_iff] at *
    omega

theorem neg_range_le_toNanos (moment : Moment) : -(range : Int) ≤ moment.toNanos := by
  have seconds := moment.le_seconds
  simp only [range, toNanos, nanosPerSecond]
  omega

/-- There is no point that much earlier just if it would lie before all points. -/
theorem before?_eq_none {moment : Moment} {span : Span} :
    moment.before? span = none ↔ moment.toNanos - span.toNanos < -(range : Int) := by
  have upper := moment.seconds_lt
  have nanos := moment.nanos_lt
  have spanNanos := span.nanos_lt
  unfold before? ofLimbs?
  by_cases borrows : moment.nanos < span.nanos
  · rw [dif_pos borrows]
    split
    next inRange =>
      simp only [range, toNanos, Span.toNanos, nanosPerSecond, reduceCtorEq, false_iff] at *
      omega
    next beyond =>
      simp only [range, toNanos, Span.toNanos, nanosPerSecond, true_iff] at *
      omega
  · rw [dif_neg borrows]
    split
    next inRange =>
      simp only [range, toNanos, Span.toNanos, nanosPerSecond, reduceCtorEq, false_iff] at *
      omega
    next beyond =>
      simp only [range, toNanos, Span.toNanos, nanosPerSecond, true_iff] at *
      omega

theorem toNanos_since {later earlier : Moment} (inOrder : earlier.toNanos ≤ later.toNanos) :
    ((later.since earlier).toNanos : Int) = later.toNanos - earlier.toNanos := by
  have laterNanos := later.nanos_lt
  have earlierNanos := earlier.nanos_lt
  unfold since
  split
  next before =>
    rw [lt_iff_toNanos_lt] at before
    omega
  next =>
    split
    next borrows =>
      simp only [toNanos, Span.toNanos, nanosPerSecond] at *
      omega
    next covers =>
      simp only [toNanos, Span.toNanos, nanosPerSecond] at *
      omega

theorem since_of_lt {later earlier : Moment} (inverted : later.toNanos < earlier.toNanos) :
    later.since earlier = .zero := by
  unfold since
  rw [if_pos (lt_iff_toNanos_lt.mpr inverted)]

end Moment

end Correlator
