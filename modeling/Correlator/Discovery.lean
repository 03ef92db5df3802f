/-!
Contract: a registry that tells whether a service is available.

Owns: the answer to a query, the count of queries, and the query from which on the service is
available.

Does not own: who asks, and when (`Correlator.Client.Operation`).
-/

set_option autoImplicit false

namespace Correlator

/-- Tells the same about every service: available or not, and available for good from the query with
number `availableFrom` on. -/
structure Discovery where
  available : Bool := false
  checks : UInt64 := 0
  availableFrom : UInt64 := 0xffffffffffffffff
deriving DecidableEq, Repr

instance : Inhabited Discovery := ⟨{}⟩

namespace Discovery

/-- A registry that is unavailable until the query with the given number, counted from one. -/
def availableAfter (check : UInt64) : Discovery := { availableFrom := check }

def query (discovery : Discovery) : Bool × Discovery :=
  let checks := discovery.checks + 1
  let available := discovery.available || discovery.availableFrom ≤ checks
  (available, { discovery with available, checks })

def setAvailable (discovery : Discovery) (available : Bool) : Discovery :=
  { discovery with available }

end Discovery

end Correlator
