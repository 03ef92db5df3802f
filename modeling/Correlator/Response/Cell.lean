import Correlator.Error

/-!
Contract: the cells that responses are stored in, and the futures that stand for them.

Owns: the one assignment of a cell, the tasks that wait for it, and what the readers of a future see.

Does not own: which response is stored where (`Correlator.Client.Operation`, `Correlator.Pending.Bench`).
-/

set_option autoImplicit false

namespace Correlator

abbrev Response := String

abbrev Waker := Nat

abbrev CellId := Nat

/-- Where the response to one request goes: empty until it is there, with the tasks that polled in
vain, in the order of their first poll. -/
structure Cell where
  sequence : Sequence
  value : Option Response := none
  wakers : List Waker := []
deriving DecidableEq, Repr

namespace Cell

def isDone (cell : Cell) : Bool := cell.value.isSome

/-- Stores the response and takes out the tasks to wake; nothing if one is there already. -/
def resolve? (cell : Cell) (value : Response) : Option (List Waker × Cell) :=
  match cell.value with
  | some _ => none
  | none => some (cell.wakers, { cell with value := some value, wakers := [] })

/-- Looks for the response; a task that does not find it is remembered, once. -/
def poll (cell : Cell) (waker : Waker) : Option Response × Cell :=
  match cell.value with
  | some value => (some value, cell)
  | none =>
    if cell.wakers.contains waker then (none, cell)
    else (none, { cell with wakers := cell.wakers ++ [waker] })

end Cell

/-- A handle on a cell; all its copies stand for the same cell. -/
structure Future where
  cell : CellId
  sequence : Sequence
deriving DecidableEq, Repr

abbrev Cells := List Cell

namespace Cells

def cell (cells : Cells) (future : Future) : Cell :=
  cells[future.cell]?.getD { sequence := future.sequence }

/-- A future on a new cell. -/
def fresh (cells : Cells) (sequence : Sequence) : Future × Cells :=
  (⟨cells.length, sequence⟩, cells ++ [⟨sequence, none, []⟩])

/-- Stores a response in the cell of a future, and tells which tasks to wake. -/
def resolve (cells : Cells) (future : Future) (value : Response) :
    Except ClientError (List Waker × Cells) :=
  let cell := cells.cell future
  match cell.resolve? value with
  | some (wakers, resolved) => .ok (wakers, cells.set future.cell resolved)
  | none => .error (.doubleResolution cell.sequence)

def poll (cells : Cells) (future : Future) (waker : Waker) : Option Response × Cells :=
  let (value, cell) := (cells.cell future).poll waker
  (value, cells.set future.cell cell)

def isDone (cells : Cells) (future : Future) : Bool := (cells.cell future).isDone

/-- The response to a future, if it is there. -/
def value? (cells : Cells) (future : Future) : Option Response := (cells.cell future).value

def describe (cells : Cells) (future : Future) : String :=
  "ResponseFuture \x7b sequence: " ++ future.sequence.describe ++ ", done: "
    ++ toString (cells.isDone future) ++ " \x7d"

end Cells

end Correlator
