/-!
Contract: documents of keys, values and tables, and the rules by which their statements extend them.

Owns: the tree of a document in the order of its keys, where each part starts in the text, the three
ways in which a table comes about, and which statements may still extend or define a table.

Does not own: the text of keys and values (`Correlator.Toml.Lexical`) and of statements
(`Correlator.Toml.Reader`).
-/

set_option autoImplicit false

namespace Correlator.Toml

/-- A place in a text: the number of characters from it to the end. -/
abbrev Mark := Nat

/-- One part of a key, and where it is written. -/
structure Key where
  name : String
  start : Mark
deriving DecidableEq, Repr

inductive Scalar where
  | text (value : String)
  | integer (value : Int)
  | real (value : Float)
  | boolean (value : Bool)
  | dateTime
deriving Repr

/-- How a table came about. -/
inductive Origin where
  /-- By a header of its own. -/
  | explicit
  /-- As a part of the path in the header of another table. -/
  | implied
  /-- As a part of the path in the key of a value. -/
  | dotted
deriving DecidableEq, Repr

/-- A tree in a document, with the place where it starts if it has one of its own. -/
inductive Node where
  | scalar (start : Mark) (value : Scalar)
  | array (start : Mark) (items : List Node)
  /-- A table that is written as a value, and which nothing extends. -/
  | inline (start : Mark) (parts : List (Key × Node))
  | table (start : Option Mark) (origin : Origin) (parts : List (Key × Node))
  /-- An array of tables, each with a header of its own. -/
  | tables (start : Mark) (items : List Node)
deriving Repr

/-- The place where a tree starts. -/
def Node.start? : Node → Option Mark
  | .scalar start _ | .array start _ | .inline start _ | .tables start _ => some start
  | .table start _ _ => start

/-- A table: its parts in the order in which their keys were first written. -/
structure Table where
  start : Option Mark
  origin : Origin
  parts : List (Key × Node)
deriving Repr

def Node.ofTable (table : Table) : Node := .table table.start table.origin table.parts

namespace Table

def empty (start : Option Mark) (origin : Origin) : Table := ⟨start, origin, []⟩

def find? (table : Table) (name : String) : Option Node :=
  (table.parts.find? (·.1.name == name)).map (·.2)

/-- The table with a further part behind the others. -/
def append (table : Table) (key : Key) (node : Node) : Table :=
  { table with parts := table.parts ++ [(key, node)] }

/-- The table with another tree in the place of the one under a name. -/
def replace (table : Table) (name : String) (node : Node) : Table :=
  { table with
    parts := table.parts.map fun part => if part.1.name == name then (part.1, node) else part }

def erase (table : Table) (name : String) : Table :=
  { table with parts := table.parts.filter (·.1.name != name) }

/-- Changes the table that a path leads to, and hands on what the change answers. Names that are
missing on the way become tables of the given origin; an array of tables leads to its last table;
nothing leads through a value. A path inside a key of a value does not enter a table that has a
header. -/
def descend {α : Type} (origin : Origin) (change : Table → Option (α × Table)) :
    List Key → Table → Option (α × Table)
  | [], table => change table
  | key :: rest, table =>
    match table.find? key.name with
    | none => do
      let (answer, child) ← descend origin change rest (.empty none origin)
      some (answer, table.append key (.ofTable child))
    | some (.table start childOrigin parts) =>
      if origin = .dotted ∧ childOrigin = .explicit then none
      else do
        let (answer, child) ← descend origin change rest ⟨start, childOrigin, parts⟩
        some (answer, table.replace key.name (.ofTable child))
    | some (.tables start items) =>
      match items.getLast? with
      | some (.table childStart childOrigin parts) => do
        let (answer, child) ← descend origin change rest ⟨childStart, childOrigin, parts⟩
        some (answer, table.replace key.name (.tables start (items.dropLast ++ [.ofTable child])))
      | _ => none
    | some _ => none

def alter (origin : Origin) (change : Table → Option Table) (path : List Key) (table : Table) :
    Option Table :=
  (table.descend origin (fun target => (change target).map ((), ·)) path).map (·.2)

/-- Adds a value under a key. A key of several parts adds it to a table that such keys alone have
made, and a name is used once. -/
def put (table : Table) (path : List Key) (key : Key) (value : Node) : Option Table :=
  table.alter .dotted (fun target =>
    if (target.origin == .dotted) == path.isEmpty then none
    else if (target.find? key.name).isSome then none
    else some (target.append key value)) path

/-- Adds the values of a table that is written as a value. -/
def ofPairs (pairs : List (List Key × Key × Node)) : Option Table :=
  pairs.foldlM (fun table (path, key, value) => table.put path key value) (.empty none .explicit)

end Table

/-- A document under way: the finished tables, and the one that values are being added to, which is
not yet among them. -/
structure Draft where
  root : Table
  current : Table
  /-- The path of the current table and its last name; none while it is the root. -/
  target : Option (List Key × Key)
  /-- Whether the current table is one of an array of tables. -/
  isItem : Bool
deriving Repr

namespace Draft

def empty : Draft := ⟨.empty none .explicit, .empty none .explicit, none, false⟩

/-- Puts the current table where its header said. -/
def settle (draft : Draft) : Option Table :=
  match draft.target with
  | none => some draft.current
  | some (path, key) =>
    draft.root.alter .implied (fun parent =>
      if draft.isItem then
        match parent.find? key.name with
        | some (.tables start items) =>
          some (parent.replace key.name (.tables start (items ++ [.ofTable draft.current])))
        | _ => none
      else some (parent.append key (.ofTable draft.current))) path

def value (draft : Draft) (path : List Key) (key : Key) (value : Node) : Option Draft :=
  (draft.current.put path key value).map fun current => { draft with current }

/-- The parts that a table already has when its header comes: none, or those that paths in other
headers have put there. -/
private def started? (parent : Table) (key : Key) : Option (List (Key × Node)) :=
  match parent.find? key.name with
  | none => some []
  | some (.table _ .implied parts) => some parts
  | some _ => none

/-- The header of a table: paths may have put parts into it already; it is then taken from its place
among the names, and comes back behind them. -/
def header (draft : Draft) (start : Mark) (path : List Key) (key : Key) : Option Draft := do
  let root ← draft.settle
  let (parts, root) ← root.descend .implied (fun parent =>
    (started? parent key).map fun parts => (parts, parent.erase key.name)) path
  some ⟨root, ⟨some start, .explicit, parts⟩, some (path, key), false⟩

def itemHeader (draft : Draft) (start : Mark) (path : List Key) (key : Key) : Option Draft := do
  let root ← draft.settle
  let root ← root.alter .implied (fun parent =>
    match parent.find? key.name with
    | none => some (parent.append key (.tables start []))
    | some (.tables _ _) => some parent
    | some _ => none) path
  some ⟨root, .empty (some start) .explicit, some (path, key), true⟩

end Draft

end Correlator.Toml
