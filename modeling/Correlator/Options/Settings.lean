import Correlator.Decimal.Numeral
import Correlator.Decimal.Shortest
import Correlator.Text.Quoted

/-!
Contract: the settings of a client as they are written down, before they are checked.

Owns: the names of the settings, what each accepts, the first complaint about a value that does not
fit, and the defaults of those that are not given.

Does not own: the notations that settings are read from (`Correlator.Options.Datum`,
`Correlator.Options.Document`), and the range checks on their values (`Correlator.Options.Basic`).
-/

set_option autoImplicit false

namespace Correlator

namespace Options

/-- What a setting sees of the value that is given for it. -/
inductive Shape where
  | absent
  | boolean (value : Bool)
  | number (value : Numeral)
  | text (value : String)
  | sequence
  | map
deriving Repr

/-- What settings are read from. -/
inductive Source where
  | document
  | datum
deriving DecidableEq, Repr

/-- How complaints write real numbers: those of a document with all their places, those of a tree
with an exponent where they are below `10 ^ -5` or not below `10 ^ 16`. -/
def Source.layout : Source → Decimal.Layout
  | .document => ⟨none, .upper⟩
  | .datum => ⟨some (-5, 16), .even⟩

def Shape.describe (source : Source) : Shape → String
  | .absent => "null"
  | .boolean value => "boolean `" ++ toString value ++ "`"
  | .number (.natural value) => "integer `" ++ toString value.toNat ++ "`"
  | .number (.negative value) => "integer `" ++ toString value.toInt ++ "`"
  | .number (.real value) => "floating point `" ++ Decimal.realText source.layout value ++ "`"
  | .text value => "string " ++ Text.quoted value
  | .sequence => "sequence"
  | .map => "map"

/-- The settings that a client has. -/
inductive Field where
  | pollInterval
  | staleAfter
  | maxPending
deriving DecidableEq, Repr

namespace Field

/-- All settings, in the order in which they stand in a list of values. -/
def all : List Field := [.pollInterval, .staleAfter, .maxPending]

/-- The name that a setting is written under. -/
def name : Field → String
  | .pollInterval => "poll_interval_ms"
  | .staleAfter => "stale_after_ms"
  | .maxPending => "max_pending"

/-- The type that a setting expects. -/
def expected : Field → String
  | .pollInterval => "u64"
  | .staleAfter => "u64"
  | .maxPending => "usize"

/-- Whether a setting may be given as absent. -/
def isOptional : Field → Bool
  | .pollInterval => false
  | .staleAfter => true
  | .maxPending => true

def ofName? (name : String) : Option Field := all.find? (·.name == name)

end Field

/-- The first thing about written settings that does not fit. -/
inductive Mismatch where
  /-- A name that no setting has. -/
  | unknownField (name : String)
  /-- A value of another type than the setting's. -/
  | wrongType (shape : Shape) (expected : String)
  /-- An integer outside the range of the setting. -/
  | wrongValue (shape : Shape) (expected : String)
  /-- A list with more values than there are settings. -/
  | surplus (length : Nat)
deriving Repr

/-- The names of all settings, for a complaint about a name. -/
private def knownNames : String := ", ".intercalate (Field.all.map fun field => "`" ++ field.name ++ "`")

/-- What a complaint about something in a source says. -/
def Mismatch.message (source : Source) : Mismatch → String
  | .unknownField name => "unknown field `" ++ name ++ "`, expected one of " ++ knownNames
  | .wrongType shape expected => "invalid type: " ++ shape.describe source ++ ", expected " ++ expected
  | .wrongValue shape expected => "invalid value: " ++ shape.describe source ++ ", expected " ++ expected
  | .surplus length =>
    "invalid length " ++ toString length ++ ", expected fewer elements in array"

/-- Settings as written: lengths of time in milliseconds. -/
structure Settings where
  pollInterval : UInt64 := 10
  staleAfter : Option UInt64 := none
  maxPending : Option UInt64 := none
deriving DecidableEq, Repr

namespace Settings

def set (settings : Settings) (value : UInt64) : Field → Settings
  | .pollInterval => { settings with pollInterval := value }
  | .staleAfter => { settings with staleAfter := some value }
  | .maxPending => { settings with maxPending := some value }

/-- The settings with one of them taken back to none. -/
def unset (settings : Settings) : Field → Settings
  | .pollInterval => settings
  | .staleAfter => { settings with staleAfter := none }
  | .maxPending => { settings with maxPending := none }

/-- Takes a value for a setting: an unsigned word, or nothing where the setting is optional. -/
def accept (settings : Settings) (field : Field) : Shape → Except Mismatch Settings
  | .number (.natural value) => .ok (settings.set value field)
  | .number (.negative value) => .error (.wrongValue (.number (.negative value)) field.expected)
  | .absent =>
    if field.isOptional then .ok (settings.unset field)
    else .error (.wrongType .absent field.expected)
  | shape => .error (.wrongType shape field.expected)

end Settings

end Options

end Correlator
