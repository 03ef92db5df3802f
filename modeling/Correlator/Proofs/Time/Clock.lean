import Correlator.Proofs.Time.Span
import Correlator.Time.ClockShelf

/-!
Contract: one virtual clock under any motions that it is given.

Owns: that the time elapsed on it is the sum of all lengths, cut off once at the longest length, that its count is that
of the sleeps, and that of two readings of it the later one is not the earlier point.

Does not own: which motions reach a clock with several handles (`Correlator.Proofs.Time.ClockShelf`).
-/

set_option autoImplicit false

namespace Correlator

namespace ClockShelf.Motion

/-- The length by which a motion moves a clock. -/
def span : Motion → Span
  | .advance span => span
  | .sleep span => span

def isSleep : Motion → Bool
  | .advance _ => false
  | .sleep _ => true

/-- The exact sum of the lengths of motions, in nanoseconds. -/
def total : List Motion → Nat
  | [] => 0
  | motion :: rest => motion.span.toNanos + total rest

theorem total_eq_of_perm {left right : List Motion} (permuted : left.Perm right) :
    total left = total right := by
  induction permuted with
  | nil => rfl
  | cons motion _ inductionHypothesis => exact congrArg (motion.span.toNanos + ·) inductionHypothesis
  | swap first second rest =>
    simp only [total]
    omega
  | trans _ _ first second => exact first.trans second

end ClockShelf.Motion

open ClockShelf (Motion)

namespace VirtualClock

/-- A clock after motions that follow each other. -/
def after (clock : VirtualClock) (motions : List Motion) : VirtualClock :=
  motions.foldl (fun clock motion => motion.apply clock) clock

variable {clock earlier later : VirtualClock}

theorem after_append (left right : List Motion) :
    clock.after (left ++ right) = (clock.after left).after right :=
  List.foldl_append

theorem elapsed_apply (motion : Motion) :
    (motion.apply clock).elapsed = clock.elapsed + motion.span := by
  cases motion <;> rfl

theorem sleeps_apply (motion : Motion) :
    (motion.apply clock).sleeps = if motion.isSleep then clock.sleeps + 1 else clock.sleeps := by
  cases motion <;> rfl

/-- The cap counts once: wherever the sum first goes beyond the longest length, what comes later adds nothing. -/
theorem toNanos_elapsed_after (motions : List Motion) :
    (clock.after motions).elapsed.toNanos
      = min (clock.elapsed.toNanos + Motion.total motions) Span.longest.toNanos := by
  induction motions generalizing clock with
  | nil =>
    rw [Motion.total, Nat.add_zero, Nat.min_eq_left clock.elapsed.toNanos_le_longest]
    rfl
  | cons motion rest inductionHypothesis =>
    calc ((motion.apply clock).after rest).elapsed.toNanos
      _ = min ((motion.apply clock).elapsed.toNanos + Motion.total rest) Span.longest.toNanos :=
          inductionHypothesis
      _ = min (min (clock.elapsed.toNanos + motion.span.toNanos) Span.longest.toNanos
            + Motion.total rest) Span.longest.toNanos := by
          rw [elapsed_apply, Span.toNanos_add]
      _ = min (clock.elapsed.toNanos + Motion.total (motion :: rest)) Span.longest.toNanos := by
          rw [Motion.total]
          omega

theorem sleeps_after (motions : List Motion) :
    (clock.after motions).sleeps = clock.sleeps + UInt64.ofNat (motions.countP Motion.isSleep) := by
  induction motions generalizing clock with
  | nil => exact (UInt64.add_zero _).symm
  | cons motion rest inductionHypothesis =>
    change ((motion.apply clock).after rest).sleeps = _
    rw [inductionHypothesis, sleeps_apply, List.countP_cons]
    by_cases isSleep : motion.isSleep = true
    · rw [if_pos isSleep, if_pos isSleep, UInt64.ofNat_add, UInt64.add_assoc,
        UInt64.add_comm (UInt64.ofNat _)]
      rfl
    · rw [if_neg isSleep, if_neg isSleep, Nat.add_zero]

theorem ext_toNanos (elapsed : earlier.elapsed.toNanos = later.elapsed.toNanos)
    (sleeps : earlier.sleeps = later.sleeps) : earlier = later := by
  cases earlier
  cases later
  cases Span.toNanos_inj.mp elapsed
  cases sleeps
  rfl

/-- Motions may come in any order. -/
theorem after_eq_of_perm {left right : List Motion} (permuted : left.Perm right) :
    clock.after left = clock.after right := by
  refine ext_toNanos ?_ ?_
  · rw [toNanos_elapsed_after, toNanos_elapsed_after, Motion.total_eq_of_perm permuted]
  · rw [sleeps_after, sleeps_after, permuted.countP_eq]

/-- A clock is never put back. -/
theorem elapsed_le_after (clock : VirtualClock) (motions : List Motion) :
    clock.elapsed ≤ (clock.after motions).elapsed := by
  rw [Span.le_iff_toNanos_le, toNanos_elapsed_after]
  have small := clock.elapsed.toNanos_le_longest
  omega

/-- Of two points that a clock shows, the one that it shows when more time has elapsed is not the earlier. -/
theorem not_lt_of_nowFrom? {start before now : Moment} (elapsed : earlier.elapsed ≤ later.elapsed)
    (first : earlier.nowFrom? start = some before) (second : later.nowFrom? start = some now) :
    ¬ now < before := by
  rw [Span.le_iff_toNanos_le] at elapsed
  rw [Moment.lt_iff_toNanos_lt, Moment.toNanos_of_after? first, Moment.toNanos_of_after? second]
  omega

end VirtualClock

end Correlator
