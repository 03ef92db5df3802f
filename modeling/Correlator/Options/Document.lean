import Correlator.Options.Basic
import Correlator.Toml.Reader

/-!
Contract: options read from a document of keys and values.

Owns: the order in which the keys of the document are visited, the first complaint about them and the
place it names.

Does not own: the grammar of documents (`Correlator.Toml.Reader`), what a single setting accepts
(`Correlator.Options.Settings`) and the range checks (`Correlator.Options.Basic`).
-/

set_option autoImplicit false

namespace Correlator.Options

open Correlator.Toml

/-- What a setting sees of a tree in a document; a date is seen as a table is. -/
def Shape.ofNode : Node → Shape
  | .scalar _ (.text value) => .text value
  | .scalar _ (.integer value) => .number (.ofInt value)
  | .scalar _ (.real value) => .number (.real value)
  | .scalar _ (.boolean value) => .boolean value
  | .scalar _ .dateTime => .map
  | .array _ _ | .tables _ _ => .sequence
  | .inline _ _ | .table _ _ _ => .map

namespace Settings

/-- Takes one part of a document. A complaint about a name names the place of the key, one about a
value that of the value, if it has one of its own. -/
def acceptPart (settings : Settings) (part : Key × Node) : Except (Mark × Mismatch) Settings :=
  match Field.ofName? part.1.name with
  | none => .error (part.1.start, .unknownField part.1.name)
  | some field =>
    match settings.accept field (.ofNode part.2) with
    | .ok settings => .ok settings
    | .error mismatch => .error (part.2.start?.getD part.1.start, mismatch)

end Settings

/-- Reads options from the text of a document. -/
def ofDocument (text : String) : Except ClientError Options :=
  let chars := text.toList
  match Table.ofChars? chars with
  | none => .error (.configParse .malformed)
  | some table =>
    match table.parts.foldlM Settings.acceptPart {} with
    | .error (mark, mismatch) =>
      let (line, column) := position chars mark
      .error (.configParse (.mismatch line column mismatch))
    | .ok settings => ofSettings settings

end Correlator.Options
