import Correlator.Error
import Correlator.Time.Span

/-!
Contract: what a client reports to its log.

Owns: the kinds of report with their severity, wording and fields.

Does not own: when each is made (`Correlator.Client.Operation`), and which severities are kept
(`Correlator.Session.Trail`).
-/

set_option autoImplicit false

namespace Correlator

/-- The severities of a log, from the most severe one on. -/
inductive Level where
  | error
  | warn
  | info
  | debug
  | trace
deriving DecidableEq, Repr

namespace Level

def text : Level → String
  | .error => "ERROR"
  | .warn => "WARN"
  | .info => "INFO"
  | .debug => "DEBUG"
  | .trace => "TRACE"

/-- All severities, from the most severe one on. -/
def all : List Level := [.error, .warn, .info, .debug, .trace]

def ofText? (text : String) : Option Level := all.find? (·.text == text)

/-- The place of a severity, counted from the most severe one. -/
def rank : Level → Nat
  | .error => 0
  | .warn => 1
  | .info => 2
  | .debug => 3
  | .trace => 4

/-- Whether a log that is kept down to `limit` keeps this severity. -/
def isKept (level limit : Level) : Bool := level.rank ≤ limit.rank

end Level

/-- Which pending requests a prune looked at. -/
inductive PruneScope where
  | all
  | olderThan
deriving DecidableEq, Repr

def PruneScope.text : PruneScope → String
  | .all => "all"
  | .olderThan => "older_than"

inductive Notice where
  | capacityReached (limit : Nat)
  | transmissionFailed (failure : Transport.Failure)
  | sequenceReused (sequence : Sequence)
  | requestSubmitted (sequence : Sequence) (pending : Nat)
  | responseUnmatched (sequence : Sequence)
  | responseCorrelated (sequence : Sequence)
  | requestCancelled (sequence : Sequence)
  | requestsPruned (removed : Nat) (scope : PruneScope)
  | polling (nap : Span)
  | hostGone
  | requestsOrphaned (orphaned : Nat)
  | disposed
deriving DecidableEq, Repr

inductive FieldValue where
  | text (value : String)
  | number (value : Nat)
deriving DecidableEq, Repr

namespace Notice

def level : Notice → Level
  | .capacityReached _ => .warn
  | .transmissionFailed _ => .warn
  | .sequenceReused _ => .warn
  | .requestSubmitted _ _ => .debug
  | .responseUnmatched _ => .warn
  | .responseCorrelated _ => .debug
  | .requestCancelled _ => .debug
  | .requestsPruned _ _ => .info
  | .polling _ => .trace
  | .hostGone => .error
  | .requestsOrphaned _ => .warn
  | .disposed => .debug

def message : Notice → String
  | .capacityReached _ => "pending request capacity reached; request not sent"
  | .transmissionFailed _ => "request transmission failed"
  | .sequenceReused _ => "transport reused a live sequence number"
  | .requestSubmitted _ _ => "request submitted"
  | .responseUnmatched _ => "response does not match any pending request"
  | .responseCorrelated _ => "response correlated"
  | .requestCancelled _ => "pending request cancelled"
  | .requestsPruned _ _ => "pruned pending requests"
  | .polling _ => "polling service availability"
  | .hostGone => "node context is no longer valid; skipping client deregistration"
  | .requestsOrphaned _ => "client disposed with outstanding pending requests"
  | .disposed => "client disposed"

/-- The fields of a report besides the service. -/
def details : Notice → List (String × FieldValue)
  | .capacityReached limit => [("limit", .number limit)]
  | .transmissionFailed failure => [("error", .text failure.text)]
  | .sequenceReused sequence => [("sequence", .number sequence.number.toNat)]
  | .requestSubmitted sequence pending =>
    [("sequence", .number sequence.number.toNat), ("pending", .number pending)]
  | .responseUnmatched sequence => [("sequence", .number sequence.number.toNat)]
  | .responseCorrelated sequence => [("sequence", .number sequence.number.toNat)]
  | .requestCancelled sequence => [("sequence", .number sequence.number.toNat)]
  | .requestsPruned removed scope => [("removed", .number removed), ("scope", .text scope.text)]
  | .polling nap => [("nap", .text nap.text)]
  | .hostGone => []
  | .requestsOrphaned orphaned => [("orphaned", .number orphaned)]
  | .disposed => []

/-- All fields of a report by the client of a service. -/
def fields (notice : Notice) (service : String) : List (String × FieldValue) :=
  ("service", .text service) :: notice.details

end Notice

end Correlator
