/-!
Contract: the running counts of a client.

Owns: the six counts, which wrap at `2 ^ 64`, and their written form.

Does not own: what is counted when (`Correlator.Client.Operation`).
-/

set_option autoImplicit false

namespace Correlator

/-- What a client counts. -/
inductive Counter where
  /-- Requests that became pending. -/
  | submitted
  /-- Responses that completed a pending request. -/
  | completed
  /-- Responses that belonged to no pending request. -/
  | unmatched
  /-- Pending requests that were cancelled. -/
  | cancelled
  /-- Pending requests that were pruned. -/
  | pruned
  /-- Requests that the transport failed to send. -/
  | transmitFailures
deriving DecidableEq, Repr

structure Tally where
  submitted : UInt64 := 0
  completed : UInt64 := 0
  unmatched : UInt64 := 0
  cancelled : UInt64 := 0
  pruned : UInt64 := 0
  transmitFailures : UInt64 := 0
deriving DecidableEq, Repr

namespace Tally

def add (tally : Tally) (amount : UInt64) : Counter → Tally
  | .submitted => { tally with submitted := tally.submitted + amount }
  | .completed => { tally with completed := tally.completed + amount }
  | .unmatched => { tally with unmatched := tally.unmatched + amount }
  | .cancelled => { tally with cancelled := tally.cancelled + amount }
  | .pruned => { tally with pruned := tally.pruned + amount }
  | .transmitFailures => { tally with transmitFailures := tally.transmitFailures + amount }

def get (tally : Tally) : Counter → UInt64
  | .submitted => tally.submitted
  | .completed => tally.completed
  | .unmatched => tally.unmatched
  | .cancelled => tally.cancelled
  | .pruned => tally.pruned
  | .transmitFailures => tally.transmitFailures

/-- All counts, in their order. -/
def toList (tally : Tally) : List UInt64 :=
  [tally.submitted, tally.completed, tally.unmatched, tally.cancelled, tally.pruned,
    tally.transmitFailures]

/-- The written form: the counts with their names, on one line. -/
def describe (tally : Tally) : String :=
  "ClientStatsSnapshot \x7b submitted: " ++ toString tally.submitted.toNat
    ++ ", completed: " ++ toString tally.completed.toNat
    ++ ", unmatched: " ++ toString tally.unmatched.toNat
    ++ ", cancelled: " ++ toString tally.cancelled.toNat
    ++ ", pruned: " ++ toString tally.pruned.toNat
    ++ ", transmit_failures: " ++ toString tally.transmitFailures.toNat ++ " \x7d"

end Tally

end Correlator
