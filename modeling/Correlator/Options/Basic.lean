import Correlator.Error
import Correlator.Time.Span

/-!
Contract: the options of a client.

Owns: their defaults, their range checks and the order of these, their written form, and the way
from written settings to options.

Does not own: how settings are read (`Correlator.Options.Datum`, `Correlator.Options.Document`).
-/

set_option autoImplicit false

namespace Correlator

/-- How a client behaves: the pause between two looks at a service that is waited for, the age above
which a pending request is stale, and how many requests may be pending. -/
structure Options where
  pollInterval : Span := .ofMillis 10
  staleAfter : Option Span := none
  maxPending : Option Nat := none
deriving DecidableEq, Repr

namespace Options

/-- The detail of the first option that is out of range. -/
def flaw? (options : Options) : Option String :=
  if options.pollInterval.isZero then some "poll interval must be positive"
  else if options.staleAfter.any (·.isZero) then some "stale-after threshold must be positive"
  else if options.maxPending == some 0 then some "max pending must be at least 1"
  else none

/-- Refuses options of which one is out of range. -/
def validate (options : Options) : Except ClientError Unit :=
  match options.flaw? with
  | some detail => .error (.invalidConfig detail)
  | none => .ok ()

def withPollInterval (options : Options) (interval : Span) : Options :=
  { options with pollInterval := interval }

def withStaleAfter (options : Options) (threshold : Span) : Options :=
  { options with staleAfter := some threshold }

def withMaxPending (options : Options) (limit : Nat) : Options :=
  { options with maxPending := some limit }

/-- The options that written settings stand for, if they are in range. -/
def ofSettings (settings : Settings) : Except ClientError Options :=
  let options : Options :=
    { pollInterval := .ofMillis settings.pollInterval
      staleAfter := settings.staleAfter.map .ofMillis
      maxPending := settings.maxPending.map (·.toNat) }
  match options.validate with
  | .ok () => .ok options
  | .error error => .error error

private def describeOption (text : Option String) : String :=
  match text with
  | some text => "Some(" ++ text ++ ")"
  | none => "None"

/-- The options with their names, on one line. -/
def describe (options : Options) : String :=
  "ClientOptions \x7b poll_interval: " ++ options.pollInterval.text
    ++ ", stale_after: " ++ describeOption (options.staleAfter.map Span.text)
    ++ ", max_pending: " ++ describeOption (options.maxPending.map toString) ++ " \x7d"

end Options

end Correlator
