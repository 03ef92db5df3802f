import Correlator.Sequence
import Correlator.Transport.Failure

/-!
Contract: a transport that keeps what it is given.

Owns: the numbers that requests get, the record of what was sent, and the failures and numbers that
are queued for coming requests.

Does not own: the clients that send through it (`Correlator.Client.Operation`).
-/

set_option autoImplicit false

namespace Correlator

abbrev Request := String

namespace Transport

/-- A transport that sends nothing on: it numbers requests, records them and counts its releases. -/
structure Loopback where
  allocator : Allocator := {}
  /-- What was sent, in the order of sending. -/
  sent : List (Sequence × Request) := []
  /-- The failures of the next requests. -/
  failures : List Failure := []
  /-- The numbers of the next requests that do not fail. -/
  forced : List Sequence := []
  releases : Nat := 0
deriving DecidableEq, Repr

namespace Loopback

/-- The number of the next request that does not fail, and the transport without it: a forced number
first, otherwise the allocator's. -/
def assign (transport : Loopback) : Sequence × Loopback :=
  match transport.forced with
  | sequence :: forced => (sequence, { transport with forced })
  | [] =>
    (transport.allocator.peek, { transport with allocator := transport.allocator.take.2 })

/-- Sends a request: a queued failure is used up instead, and no number with it. -/
def send (transport : Loopback) (request : Request) : Except Failure Sequence × Loopback :=
  match transport.failures with
  | failure :: failures => (.error failure, { transport with failures })
  | [] =>
    let (sequence, transport) := transport.assign
    (.ok sequence, { transport with sent := transport.sent ++ [(sequence, request)] })

def release (transport : Loopback) : Loopback :=
  { transport with releases := transport.releases + 1 }

/-- Queues a failure behind those already queued. -/
def failNext (transport : Loopback) (failure : Failure) : Loopback :=
  { transport with failures := transport.failures ++ [failure] }

/-- Queues a number behind those already queued. -/
def forceNext (transport : Loopback) (sequence : Sequence) : Loopback :=
  { transport with forced := transport.forced ++ [sequence] }

end Loopback

end Transport

end Correlator
