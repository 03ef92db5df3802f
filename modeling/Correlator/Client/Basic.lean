import Correlator.Cancellation
import Correlator.Client.Tally
import Correlator.Discovery
import Correlator.Host
import Correlator.Options.Basic
import Correlator.Pending.Table
import Correlator.Pool
import Correlator.Time.Clock
import Correlator.Transport.Loopback

/-!
Contract: clients, and the environment that they work in.

Owns: what a client holds for itself, what it shares with others, and the access to the shared parts.

Does not own: the operations of a client (`Correlator.Client.Operation`), and how a client is put together
(`Correlator.Client.Builder`).
-/

set_option autoImplicit false

namespace Correlator

abbrev TransportId := Nat

abbrev RegistryId := Nat

abbrev HostId := Nat

abbrev ClockId := Nat

/-- The clocks that a client can use. -/
inductive ClockChoice where
  /-- A virtual clock, shared by all who use it. -/
  | virtual (clock : ClockId)
  /-- The clock of real time. -/
  | running
deriving DecidableEq, Repr

/-- The types of values that requests and responses can have. -/
inductive Payload where
  | text
  | word
  | boolean
  | real
deriving DecidableEq, Repr

def Payload.typeName : Payload → String
  | .text => "alloc::string::String"
  | .word => "u32"
  | .boolean => "bool"
  | .real => "f64"

/-- A service: its name, and the types of its requests and responses. -/
structure Service where
  name : String
  request : Payload := .text
  response : Payload := .text
deriving DecidableEq, Repr

/-- A client of one service: its pending requests with their callbacks of type `κ`, whether it is
still in use, and its counts. -/
structure Client (κ : Type) where
  descriptor : Service
  options : Options
  transport : TransportId
  registry : RegistryId
  host : HostId
  clock : ClockChoice
  /-- The token that ends every wait of the client. -/
  shutdown : Option Token
  table : Pending.Table κ := .empty
  disposed : Bool := false
  tally : Tally := {}
deriving DecidableEq, Repr

namespace Client

variable {κ : Type}

def service (client : Client κ) : String := client.descriptor.name

def pendingCount (client : Client κ) : Nat := client.table.size

/-- Whether as many requests are pending as the client allows; with how many that is. -/
def reached? (client : Client κ) : Option Nat :=
  client.options.maxPending.filter (· ≤ client.pendingCount)

def count (client : Client κ) (counter : Counter) (amount : UInt64) : Client κ :=
  { client with tally := client.tally.add amount counter }

def describe (client : Client κ) : String :=
  "RequestClient \x7b service: " ++ Text.quoted client.service ++ ", pending: "
    ++ client.table.describe ++ ", disposed: " ++ toString client.disposed ++ " \x7d"

end Client

/-- What clients share, or have for themselves: the cells of responses, the transports, the registries of
services, the hosts, the virtual clocks and the tokens; and real time, which is the same for all. -/
structure Environment where
  cells : Cells := []
  transports : List Transport.Loopback := []
  registries : Pool Discovery := {}
  hosts : Pool Host := {}
  clocks : Pool VirtualClock := {}
  realTime : RunningClock := {}
  tokens : TokenShelf := .empty
deriving DecidableEq, Repr

namespace Environment

def transport (environment : Environment) (index : TransportId) : Transport.Loopback :=
  environment.transports[index]?.getD {}

def setTransport (environment : Environment) (index : TransportId)
    (transport : Transport.Loopback) : Environment :=
  { environment with transports := environment.transports.set index transport }

def registry (environment : Environment) (index : RegistryId) : Discovery :=
  environment.registries.get index

def setRegistry (environment : Environment) (index : RegistryId) (registry : Discovery) :
    Environment :=
  { environment with registries := environment.registries.put index registry }

theorem registry_setRegistry (environment : Environment) (index other : RegistryId)
    (registry : Discovery) :
    (environment.setRegistry index registry).registry other
      = if index = other then registry else environment.registry other :=
  environment.registries.get_put index other registry

def host (environment : Environment) (index : HostId) : Host := environment.hosts.get index

def setHost (environment : Environment) (index : HostId) (host : Host) : Environment :=
  { environment with hosts := environment.hosts.put index host }

theorem host_setHost (environment : Environment) (index other : HostId) (host : Host) :
    (environment.setHost index host).host other
      = if index = other then host else environment.host other :=
  environment.hosts.get_put index other host

/-- A service signs off from a host. -/
def deregister (environment : Environment) (index : HostId) (service : String) : Environment :=
  environment.setHost index ((environment.host index).deregister service)

def clock (environment : Environment) (index : ClockId) : VirtualClock :=
  environment.clocks.get index

def setClock (environment : Environment) (index : ClockId) (clock : VirtualClock) : Environment :=
  { environment with clocks := environment.clocks.put index clock }

theorem clock_setClock (environment : Environment) (index other : ClockId) (clock : VirtualClock) :
    (environment.setClock index clock).clock other
      = if index = other then clock else environment.clock other :=
  environment.clocks.get_put index other clock

/-- Reads a clock; none where the present is out of range. -/
def readClock (environment : Environment) : ClockChoice → Option Moment × Environment
  | .virtual index => ((environment.clock index).now?, environment)
  | .running =>
    let (now, realTime) := environment.realTime.read
    (now, { environment with realTime })

def sleep (environment : Environment) (nap : Span) : ClockChoice → Environment
  | .virtual index => environment.setClock index ((environment.clock index).sleep nap)
  | .running => { environment with realTime := environment.realTime.sleep nap }

/-- Whether a token is set; no token never is. -/
def isCancelled (environment : Environment) (token : Option Token) : Bool :=
  token.any environment.tokens.isCancelled

end Environment

end Correlator
