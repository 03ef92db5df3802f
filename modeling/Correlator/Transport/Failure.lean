/-!
Contract: the ways in which a transport can fail to send a request.

Owns: the kinds of failure and their written form.

Does not own: when a transport fails (`Correlator.Transport.Loopback`), and what a client does about
it (`Correlator.Client.Operation`).
-/

set_option autoImplicit false

namespace Correlator.Transport

/-- A coarse class of failures. -/
inductive FailureKind where
  /-- The connection or its handle is closed. -/
  | closed
  /-- The request itself was refused. -/
  | rejected
  /-- Input or output failed below the transport. -/
  | io
deriving DecidableEq, Repr

def FailureKind.text : FailureKind → String
  | .closed => "Closed"
  | .rejected => "Rejected"
  | .io => "Io"

structure Failure where
  kind : FailureKind
  message : String
deriving DecidableEq, Repr

/-- The failure of a closed connection. -/
def Failure.ofClosed (message : String) : Failure := ⟨.closed, message⟩

def Failure.text (failure : Failure) : String := failure.kind.text ++ ": " ++ failure.message

end Correlator.Transport
