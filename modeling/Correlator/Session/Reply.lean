import Correlator.Response.Reader
import Correlator.Session.Op

/-!
Contract: what the operations of a session reply, and the trail of what happens meanwhile.

Owns: the forms of replies, the things that a trail records, and the two extracts of a trail: what
callers notice, and what is in the log.

Does not own: when something is recorded (`Correlator.Session.Machine`).
-/

set_option autoImplicit false

namespace Correlator.Session

inductive Reply where
  | nothing
  | flag (value : Bool)
  | count (value : Nat)
  | text (value : String)
  | texts (values : List String)
  | span (value : Span)
  | options (value : Options)
  | sent (requests : List (Sequence × Request))
  /-- The answer of a client. -/
  | answered (result : Except ClientError Answer)
  /-- A request is pending, and its future recorded under a number. -/
  | submitted (index : Nat) (sequence : Sequence)
  | submittedMany (count : Nat) (lastError : Option ClientError)
  | waitedSimply (isAvailable : Bool)
  | recorded (index : Nat) (sequence : Sequence)
  | future (sequence : Sequence) (value : Option Response) (described : String)
  /-- What a reader got, who does not wait any longer. -/
  | got (value : Option Response)
  | wouldBlock
  /-- What a task got that polled. -/
  | polled (value : Option Response)
  | resolved (sequence : Sequence)
  | notPending
  | readers (result : Except ClientError Answer) (values : List (Option Response))
  /-- How often each outcome came up, by its code. -/
  | raced (counts : List (String × Nat))
  | raceSubmitted (futures : List (Nat × Sequence))
  /-- The future, the own future, or something else that the operation names does not exist. -/
  | noFuture
  | noOwnFuture
  | unknown
  | broke (fault : Fault)
deriving Repr

/-- What a reader was told; one that was not would have to go on waiting. -/
def Reply.ofReader : Reader → Reply
  | .told answer => .got answer
  | .looks _ | .sleeps _ => .wouldBlock

/-- The outcome of a response in a race. -/
def raceCode : Except ClientError Answer → String
  | .ok _ => "ok"
  | .error error => error.code

/-- Adds one to the count of an outcome. -/
def countCode (code : String) : List (String × Nat) → List (String × Nat)
  | [] => [(code, 1)]
  | (known, count) :: rest =>
    if known == code then (known, count + 1) :: rest else (known, count) :: countCode code rest

/-- Something that happens in the course of an operation. -/
inductive Occurrence where
  | turn (turn : Turn Program)
  /-- A task was woken past all clients. -/
  | woke (waker : Waker)
  /-- A callback began with a future. -/
  | calledBack (sequence : Sequence) (value : Option Response)
  /-- An operation in a program was done. -/
  | nested (op : Op) (reply : Reply)
  /-- What follows happens on other threads, until they are left. -/
  | threadsEntered
  | threadsLeft
deriving Repr

/-- What callers notice of an operation besides its reply. -/
inductive Event where
  | calledBack (sequence : Sequence) (value : Option Response)
  | nested (op : Op) (reply : Reply)
  | woke (waker : Waker)
  | deregistered (service : String)
  | released (transport : TransportId)
deriving Repr

/-- What callers notice of an effect. -/
def Event.ofEffect? : Effect → Option Event
  | .woke waker => some (.woke waker)
  | .deregistered service => some (.deregistered service)
  | .released transport => some (.released transport)
  | _ => none

/-- What callers notice of an occurrence. -/
def Event.ofOccurrence : Occurrence → List Event
  | .turn turn => turn.effects.filterMap Event.ofEffect?
  | .woke waker => [.woke waker]
  | .calledBack sequence value => [.calledBack sequence value]
  | .nested op reply => [.nested op reply]
  | .threadsEntered | .threadsLeft => []

/-- A report and the service whose client made it. -/
structure LogEntry where
  service : String
  notice : Notice
deriving DecidableEq, Repr

/-- The reports among the effects of a turn. -/
def LogEntry.ofTurn (turn : Turn Program) : List LogEntry :=
  turn.effects.filterMap fun effect =>
    match effect with
    | .logged notice => some ⟨turn.service, notice⟩
    | _ => none

abbrev Trail := List Occurrence

namespace Trail

def events (trail : Trail) : List Event := trail.flatMap Event.ofOccurrence

/-- The reports that are made outside of other threads; `elsewhere` counts the threads' beginnings
that have not ended. -/
def reports (elsewhere : Nat) : Trail → List LogEntry
  | [] => []
  | .turn turn :: rest =>
    if elsewhere = 0 then LogEntry.ofTurn turn ++ reports elsewhere rest else reports elsewhere rest
  | .threadsEntered :: rest => reports (elsewhere + 1) rest
  | .threadsLeft :: rest => reports (elsewhere - 1) rest
  | _ :: rest => reports elsewhere rest

/-- The reports that a log keeps; no log keeps none. -/
def log (limit : Option Level) (trail : Trail) : List LogEntry :=
  match limit with
  | none => []
  | some limit => (trail.reports 0).filter (·.notice.level.isKept limit)

end Trail

end Correlator.Session
