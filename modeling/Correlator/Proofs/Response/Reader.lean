import Correlator.Response.Reader

/-!
Contract: what readers that block are told.

Owns: that a cell with a response tells it to every reader that looks, and that nothing is told from an empty cell
but at a deadline.

Does not own: that a cell keeps its response (`Correlator.Proofs.Response.History`).
-/

set_option autoImplicit false

namespace Correlator

namespace Reader

variable {cell : Cell} {value : Response} {answer : Option Response} {reader : Reader}

/-- A reader that looks into a cell with a response is told it, however long it would have waited. -/
theorem step_looks (held : cell.value = some value) (deadlineCame : Bool)
    (deadline : Option Moment) :
    (Reader.looks deadline).step cell deadlineCame = .told (some value) := by
  unfold step
  dsimp only
  rw [held]

/-- What a reader is told at a step is what the cell holds then. -/
theorem told_of_step {deadlineCame : Bool} (waits : ∀ known, reader ≠ .told known)
    (told : reader.step cell deadlineCame = .told answer) : answer = cell.value := by
  cases reader with
  | looks deadline =>
    unfold step at told
    dsimp only at told
    split at told
    next held =>
      cases told
      exact held.symm
    next => cases told
  | sleeps deadline =>
    unfold step at told
    dsimp only at told
    split at told
    · cases told
      rfl
    · cases told
  | told known => exact absurd rfl (waits known)

end Reader

end Correlator
