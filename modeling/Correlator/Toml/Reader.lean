import Correlator.Toml.Lexical

/-!
Contract: the text of a document.

Owns: values with parts, the statements of a document, and the depth to which values may be nested.

Does not own: what a statement does to the document (`Correlator.Toml.Document`).
-/

set_option autoImplicit false

namespace Correlator.Toml

/-- The values of an array behind its opening bracket; a comma may follow the last one. -/
def arrayItems (value : Reader Node) : Nat → Reader (List Node)
  | 0, _ => none
  | fuel + 1, chars =>
    match skipLines false chars with
    | ']' :: rest => some ([], rest)
    | chars => do
      let (item, rest) ← value chars
      match skipLines false rest with
      | ',' :: rest => do
        let (items, rest) ← arrayItems value fuel rest
        some (item :: items, rest)
      | ']' :: rest => some ([item], rest)
      | _ => none

/-- The pairs of a table on one line up to its closing brace; no comma follows the last one. -/
def inlinePairs (value : Reader Node) : Nat → Reader (List (List Key × Key × Node))
  | 0, _ => none
  | fuel + 1, chars => do
    let ((path, last), rest) ← key chars
    let rest ← expect '=' rest
    let (item, rest) ← value (skipSpace rest)
    match skipSpace rest with
    | ',' :: rest => do
      let (pairs, rest) ← inlinePairs value fuel rest
      some ((path, last, item) :: pairs, rest)
    | '\x7d' :: rest => some ([(path, last, item)], rest)
    | _ => none

/-- A table on one line behind its opening brace. -/
def inlineTable (value : Reader Node) : Reader Table := fun chars => do
  let (pairs, rest) ←
    match skipSpace chars with
    | '\x7d' :: rest => some ([], rest)
    | _ => inlinePairs value (chars.length + 1) chars
  let table ← Table.ofPairs pairs
  some (table, rest)

/-- A value in which arrays and tables are nested at most `depth` deep. -/
def value (depth : Nat) : Reader Node := fun chars =>
  match chars with
  | [] => none
  | '"' :: rest => (string true '"' rest).map fun (text, rest) =>
    (.scalar chars.length (.text text), rest)
  | '\x27' :: rest => (string false '\x27' rest).map fun (text, rest) =>
    (.scalar chars.length (.text text), rest)
  | '[' :: inner =>
    match depth with
    | 0 => none
    | depth + 1 => do
      let (items, rest) ← arrayItems (value depth) (inner.length + 1) inner
      some (.array chars.length items, rest)
  | '\x7b' :: inner =>
    match depth with
    | 0 => none
    | depth + 1 => do
      let (table, rest) ← inlineTable (value depth) inner
      some (.inline chars.length table.parts, rest)
  | 't' :: 'r' :: 'u' :: 'e' :: rest => some (.scalar chars.length (.boolean true), rest)
  | 'f' :: 'a' :: 'l' :: 's' :: 'e' :: rest => some (.scalar chars.length (.boolean false), rest)
  | _ => (numeric chars).map fun (scalar, rest) => (.scalar chars.length scalar, rest)

/-- How deep values may be nested. -/
def depthLimit : Nat := 79

/-- A statement that gives a value to a key, with the rest of its line. -/
def pairStatement (draft : Draft) (chars : List Char) : Option (Draft × List Char) := do
  let ((path, last), rest) ← key chars
  let rest ← expect '=' rest
  let (item, rest) ← value depthLimit (skipSpace rest)
  let rest ← lineRest? rest
  let draft ← draft.value path last item
  some (draft, rest)

/-- A statement that heads a table or one table of an array, with the rest of its line. -/
def headerStatement (draft : Draft) (chars : List Char) : Option (Draft × List Char) :=
  match chars with
  | '[' :: '[' :: inner => do
    let ((path, last), rest) ← key inner
    let rest ← expect ']' rest
    let rest ← expect ']' rest
    let rest ← lineRest? rest
    let draft ← draft.itemHeader chars.length path last
    some (draft, rest)
  | '[' :: inner => do
    let ((path, last), rest) ← key inner
    let rest ← expect ']' rest
    let rest ← lineRest? rest
    let draft ← draft.header chars.length path last
    some (draft, rest)
  | _ => none

/-- The statements of a document, at most one a line. -/
def statements : Nat → Draft → List Char → Option Draft
  | 0, _, _ => none
  | fuel + 1, draft, chars =>
    match skipSpace chars with
    | [] => some draft
    | '#' :: rest => (lineRest? ('#' :: rest)).bind (statements fuel draft)
    | '[' :: rest =>
      (headerStatement draft ('[' :: rest)).bind fun (draft, rest) => statements fuel draft rest
    | chars =>
      match lineBreak? chars with
      | some rest => statements fuel draft rest
      | none => (pairStatement draft chars).bind fun (draft, rest) => statements fuel draft rest

/-- The table of a document, behind a byte order mark if there is one; none where the text is not
well formed or defines something twice. -/
def Table.ofChars? (chars : List Char) : Option Table :=
  let chars :=
    match chars with
    | '\ufeff' :: rest => rest
    | chars => chars
  (statements (chars.length + 1) .empty chars).bind Draft.settle

/-- The line and the column, counted from one, of a place in a text. -/
def position (chars : List Char) (mark : Mark) : Nat × Nat :=
  let before := chars.take (chars.length - mark)
  (before.count '\n' + 1, (before.reverse.takeWhile (· != '\n')).length + 1)

end Correlator.Toml
