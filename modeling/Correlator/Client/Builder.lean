import Correlator.Client.Basic
import Correlator.Text.Blank

/-!
Contract: putting a client together from its parts.

Owns: which parts a client needs, the defaults of the others, and the first complaint about a client
that cannot be put together.

Does not own: the range checks on options (`Correlator.Options.Basic`).
-/

set_option autoImplicit false

namespace Correlator

/-- The parts of a client to be. -/
structure Builder where
  service : Service
  transport : Option TransportId := none
  registry : Option RegistryId := none
  host : Option HostId := none
  shutdown : Option Token := none
  clock : ClockChoice := .running
  options : Options := {}
deriving DecidableEq, Repr

namespace Builder

/-- Puts the client together: the service needs a name, the options have to be in range, and the
transport, the registry and the host are needed. -/
def build {κ : Type} (builder : Builder) : Except ClientError (Client κ) :=
  if Text.isBlank builder.service.name then
    .error (.invalidConfig "service name must not be empty")
  else
    match builder.options.validate with
    | .error error => .error error
    | .ok () =>
      match builder.transport, builder.registry, builder.host with
      | none, _, _ => .error (.invalidConfig "transport is required")
      | some _, none, _ => .error (.invalidConfig "discovery is required")
      | some _, some _, none => .error (.invalidConfig "node context is required")
      | some transport, some registry, some host =>
        .ok
          { descriptor := builder.service
            options := builder.options
            transport
            registry
            host
            clock := builder.clock
            shutdown := builder.shutdown }

end Builder

end Correlator
