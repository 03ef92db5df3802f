/-!
Contract: a host that clients are registered with.

Owns: whether the host is still there, and the record of the clients that signed off.

Does not own: when a client signs off (`Correlator.Client.Operation`).
-/

set_option autoImplicit false

namespace Correlator

/-- A host: there until it is invalidated, which is for good. -/
structure Host where
  isValid : Bool := true
  /-- The services of the clients that signed off, in that order. -/
  deregistered : List String := []
deriving DecidableEq, Repr

instance : Inhabited Host := ⟨{}⟩

namespace Host

def invalidate (host : Host) : Host := { host with isValid := false }

def deregister (host : Host) (service : String) : Host :=
  { host with deregistered := host.deregistered ++ [service] }

end Host

end Correlator
