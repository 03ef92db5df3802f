import Correlator.World

/-!
Contract: the operations of a session, and the programs made of them.

Owns: what can be asked of clients, futures, tokens and the environment, also from inside completion
callbacks and from inside waits.

Does not own: what an operation does (`Correlator.Session.Machine`) and what it replies
(`Correlator.Session.Reply`).
-/

set_option autoImplicit false

namespace Correlator.Session

/-- A future that an operation is about. -/
inductive FutureRef where
  | recorded (index : Nat)
  /-- The future that the enclosing callback runs with. -/
  | own
deriving DecidableEq, Repr

/-- A token that an operation is about. -/
inductive TokenRef where
  /-- The token that ends the waits of all clients. -/
  | shutdown
  | numbered (index : Nat)
deriving DecidableEq, Repr

/-- The request that an operation is about. -/
inductive Target where
  | number (sequence : Sequence)
  | future (reference : FutureRef)
deriving DecidableEq, Repr

/-- An operation. Callbacks and the programs that run inside a wait are lists of operations. -/
inductive Op where
  /-- Operations on a client. -/
  | submit (client : ClientId) (request : Request) (callback : Option (List Op))
  | submitMany (client : ClientId) (count : Nat)
  | complete (client : ClientId) (target : Target) (response : Response)
  | cancel (client : ClientId) (future : FutureRef)
  | pruneAll (client : ClientId)
  | pruneOlder (client : ClientId) (cutoff : Moment)
  | pruneStale (client : ClientId)
  | isAvailable (client : ClientId)
  | dispose (client : ClientId)
  /-- Waits for a service; `onSleep` and `onCheck` give programs to run inside the wait after the
  sleep, or before the query, with a number counted from one. A simple wait only tells whether the
  service is there, and heeds no token of its caller. -/
  | wait (client : ClientId) (timeout : Option Span) (token : Option TokenRef) (simple : Bool)
    (onSleep onCheck : List (Nat × List Op))
  /-- Views of a client. -/
  | isPending (client : ClientId) (target : Target)
  | pendingCount (client : ClientId)
  | describe (client : ClientId)
  | describeTally (client : ClientId)
  | options (client : ClientId)
  /-- Operations on futures. -/
  | future (future : FutureRef)
  | cloneFuture (future : FutureRef)
  | same (left right : FutureRef)
  | get (future : FutureRef)
  | getWithin (future : FutureRef) (timeout : Span)
  | poll (future : FutureRef) (waker : Waker)
  /-- Completes a request past all clients. -/
  | resolveDirect (future : FutureRef) (value : Response) (callback : Option (List Op))
  /-- Operations by several threads. -/
  | readers (client : ClientId) (future : FutureRef) (readers : Nat) (response : Response)
  | race (client : ClientId) (future : FutureRef) (threads : Nat) (response : Response)
  | raceSubmit (client : ClientId) (threads each : Nat)
  /-- Operations on the environment. -/
  | failNext (transport : TransportId) (failure : Transport.Failure)
  | forceNext (transport : TransportId) (sequence : Sequence)
  | setAvailable (registry : RegistryId) (value : Bool)
  | invalidate (host : HostId)
  | advance (clock : ClockId) (span : Span)
  | sent (transport : TransportId)
  | sentCount (transport : TransportId)
  | releaseCount (transport : TransportId)
  | deregistered (host : HostId)
  | now (clock : ClockId)
  | token (parent : Option TokenRef)
  | cancelToken (token : TokenRef)
  | isCancelled (token : TokenRef)
  | raise (message : String)
deriving Repr

abbrev Program := List Op

def Op.name : Op → String
  | .submit .. => "submit"
  | .submitMany .. => "submit_many"
  | .complete .. => "complete"
  | .cancel .. => "cancel"
  | .pruneAll .. => "prune_all"
  | .pruneOlder .. => "prune_older"
  | .pruneStale .. => "prune_stale"
  | .isAvailable .. => "available"
  | .dispose .. => "dispose"
  | .wait .. => "wait"
  | .isPending .. => "is_pending"
  | .pendingCount .. => "pending_count"
  | .describe .. => "debug"
  | .describeTally .. => "stats_debug"
  | .options .. => "options"
  | .future .. => "future"
  | .cloneFuture .. => "clone_future"
  | .same .. => "same"
  | .get .. => "get"
  | .getWithin .. => "get_timeout"
  | .poll .. => "poll"
  | .resolveDirect .. => "resolve_direct"
  | .readers .. => "readers"
  | .race .. => "race"
  | .raceSubmit .. => "race_submit"
  | .failNext .. => "fail_next"
  | .forceNext .. => "force_next"
  | .setAvailable .. => "set_available"
  | .invalidate .. => "invalidate"
  | .advance .. => "advance"
  | .sent .. => "sent"
  | .sentCount .. => "sent_count"
  | .releaseCount .. => "release_count"
  | .deregistered .. => "deregistered"
  | .now .. => "now"
  | .token .. => "token"
  | .cancelToken .. => "cancel_token"
  | .isCancelled .. => "is_cancelled"
  | .raise .. => "panic"

end Correlator.Session
