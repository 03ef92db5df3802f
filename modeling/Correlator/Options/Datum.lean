import Correlator.Options.Basic

/-!
Contract: options read from a tree of plain data.

Owns: the data trees, the two forms of options among them (a record by names, a list by positions),
the order in which their parts are visited, and the refusal of the first part that does not fit.

Does not own: what a single setting accepts (`Correlator.Options.Settings`), and the text that a tree
is written in.
-/

set_option autoImplicit false

namespace Correlator

/-- A tree of plain data. The names in a record are pairwise distinct. -/
inductive Datum where
  | null
  | boolean (value : Bool)
  | number (value : Numeral)
  | text (value : String)
  | list (items : List Datum)
  | record (fields : List (String × Datum))
deriving Inhabited, Repr

namespace Options

/-- What a setting sees of a tree. -/
def Shape.ofDatum : Datum → Shape
  | .null => .absent
  | .boolean value => .boolean value
  | .number value => .number value
  | .text value => .text value
  | .list _ => .sequence
  | .record _ => .map

namespace Settings

def acceptNamed (settings : Settings) (part : String × Datum) : Except Mismatch Settings :=
  match Field.ofName? part.1 with
  | none => .error (.unknownField part.1)
  | some field => settings.accept field (.ofDatum part.2)

/-- Takes the parts of a record in the order of their names. -/
def ofRecord (fields : List (String × Datum)) : Except Mismatch Settings :=
  (fields.mergeSort fun left right => !(right.1 < left.1)).foldlM acceptNamed {}

/-- Takes the items of a list by position; those beyond the last setting are refused together once
the others are taken. -/
def ofList (items : List Datum) : Except Mismatch Settings := do
  let settings ← (Field.all.zip items).foldlM
    (fun settings (field, item) => settings.accept field (.ofDatum item)) {}
  if Field.all.length < items.length then .error (.surplus items.length) else .ok settings

def ofDatum : Datum → Except Mismatch Settings
  | .record fields => ofRecord fields
  | .list items => ofList items
  | datum => .error (.wrongType (.ofDatum datum) "struct RawClientOptions")

end Settings

/-- Reads options from a tree; what is wrong with it comes as a message. -/
def ofDatum (datum : Datum) : Except String Options :=
  match Settings.ofDatum datum with
  | .error mismatch => .error (mismatch.message .datum)
  | .ok settings =>
    match ofSettings settings with
    | .error error => .error error.message
    | .ok options => .ok options

end Options

end Correlator
