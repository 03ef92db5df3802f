import Correlator.Client.Builder
import Correlator.Options.Document
import Correlator.Session.Op

/-!
Contract: sessions: clients in an environment, with the futures and tokens that their user holds.

Owns: how a session begins, and the numbering of futures and tokens.

Does not own: the operations (`Correlator.Session.Machine`).
-/

set_option autoImplicit false

namespace Correlator

/-- Clients in an environment, and what their user holds. -/
structure Session where
  world : World Session.Program
  /-- The recorded futures, by their numbers. -/
  futures : List Future := []
  /-- The token that ends the waits of all clients. -/
  shutdown : Token
  /-- The tokens that were made in the session, by their numbers. -/
  tokens : List Token := []
deriving Repr

namespace Session

/-- How the options of a client are given. -/
inductive OptionsSource where
  | given (options : Options)
  | written (text : String)
deriving DecidableEq, Repr

/-- A client to begin with. -/
structure ClientSpec where
  service : String
  options : OptionsSource := .given {}
  transport : TransportId
  registry : RegistryId := 0
  host : HostId := 0
  clock : ClockChoice := .virtual 0
  /-- Whether the token of the session ends its waits. -/
  heedsShutdown : Bool := true
deriving DecidableEq, Repr

def OptionsSource.options : OptionsSource → Except ClientError Options
  | .given options => .ok options
  | .written text => Options.ofDocument text

/-- The client that a specification describes. -/
def ClientSpec.build (spec : ClientSpec) (shutdown : Token) :
    Except ClientError (Client Program) :=
  match spec.options.options with
  | .error error => .error error
  | .ok options =>
    Builder.build
      { service := { name := spec.service }
        transport := some spec.transport
        registry := some spec.registry
        host := some spec.host
        shutdown := if spec.heedsShutdown then some shutdown else none
        clock := spec.clock
        options }

/-- Begins a session with a transport for each client, and with the given registries; the first client
that cannot be put together ends it. -/
def start (specs : List ClientSpec) (registries : Pool Discovery) : Except ClientError Session :=
  let (shutdown, tokens) := TokenShelf.empty.fresh
  match specs.mapM (·.build shutdown) with
  | .error error => .error error
  | .ok clients =>
    .ok
      { world :=
          { clients
            environment := { transports := specs.map fun _ => {}, registries, tokens } }
        shutdown }

def withEnvironment (session : Session) (environment : Environment) : Session :=
  { session with world := { session.world with environment } }

def environment (session : Session) : Environment := session.world.environment

def cells (session : Session) : Cells := session.environment.cells

def client? (session : Session) (index : ClientId) : Option (Client Program) :=
  session.world.clients[index]?

/-- Records a future under the next number. -/
def record (session : Session) (future : Future) : Nat × Session :=
  (session.futures.length, { session with futures := session.futures ++ [future] })

/-- The token that a reference means. -/
def token? (session : Session) : TokenRef → Option Token
  | .shutdown => some session.shutdown
  | .numbered index => session.tokens[index]?

end Session

end Correlator
