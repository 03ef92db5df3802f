import Correlator.Response.Cell
import Correlator.Time.Moment

/-!
Contract: one pending request.

Owns: what is kept about it until its response comes, and its completion by that response.

Does not own: the table of all pending requests (`Correlator.Pending.Table`).
-/

set_option autoImplicit false

namespace Correlator.Pending

/-- A pending request: the future its caller holds, what to run on completion, and when it was
submitted. -/
structure Entry (κ : Type) where
  future : Future
  callback : Option κ
  submittedAt : Moment
deriving DecidableEq, Repr

namespace Entry

variable {κ : Type}

def sequence (entry : Entry κ) : Sequence := entry.future.sequence

/-- Whether something is to be run on completion. -/
def hasCallback (entry : Entry κ) : Bool := entry.callback.isSome

/-- The written form of a pending request up to its time of submission. -/
def describe (entry : Entry κ) : String :=
  "PendingRequest \x7b sequence: " ++ entry.sequence.describe ++ ", has_callback: "
    ++ toString entry.hasCallback

end Entry

/-- A completed request: its future, and the callback that is to be run. -/
structure Completed (κ : Type) where
  future : Future
  callback : Option κ
deriving DecidableEq, Repr

/-- Completes a request: its response is stored, and the tasks that wait for it are woken. -/
def Entry.resolve {κ : Type} (entry : Entry κ) (cells : Cells) (value : Response) :
    Except ClientError (List Waker × Completed κ × Cells) :=
  match cells.resolve entry.future value with
  | .ok (wakers, cells) => .ok (wakers, ⟨entry.future, entry.callback⟩, cells)
  | .error error => .error error

end Correlator.Pending
