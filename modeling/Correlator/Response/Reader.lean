import Correlator.Response.Cell
import Correlator.Time.Moment

/-!
Contract: readers that block until a response is there.

Owns: when such a reader looks into the cell, when it sleeps, and what it is told.

Does not own: the cell (`Correlator.Response.Cell`), and tasks, which are woken instead of kept waiting.
-/

set_option autoImplicit false

namespace Correlator

/-- A reader that blocks. It sleeps until its deadline at the latest, if it has one. -/
inductive Reader where
  /-- It is about to look. -/
  | looks (deadline : Option Moment)
  | sleeps (deadline : Option Moment)
  | told (answer : Option Response)
deriving DecidableEq, Repr

namespace Reader

/-- A reader that waits for as long as it takes. -/
def unbounded : Reader := .looks none

/-- A reader that waits for a length of time from now on; if that ends beyond all points in time, it waits for as
long as it takes. -/
def within (now : Option Moment) (timeout : Span) : Reader := .looks (now.bind (·.after? timeout))

/-- What a reader does next, with the cell as it is then. A sleep ends since the deadline has come, or since the
reader was roused, be it for a reason or not. -/
def step (cell : Cell) (deadlineCame : Bool) : Reader → Reader
  | .looks deadline =>
    match cell.value with
    | some value => .told (some value)
    | none => .sleeps deadline
  | .sleeps deadline =>
    if deadlineCame && deadline.isSome then .told cell.value else .looks deadline
  | .told answer => .told answer

end Reader

end Correlator
