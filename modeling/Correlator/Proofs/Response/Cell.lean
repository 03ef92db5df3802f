import Mathlib.Data.List.Basic
import Correlator.Response.Cell

/-!
Contract: what a future shows, and how cells change.

Owns: the value that a future holds, and what making a cell, storing a response and polling do to
the value of every future.

Does not own: which futures there are (`Correlator.Proofs.Course.Request`).
-/

set_option autoImplicit false

namespace Correlator

namespace Cell

@[simp] theorem poll_sequence (cell : Cell) (waker : Waker) :
    (cell.poll waker).2.sequence = cell.sequence := by
  unfold Cell.poll
  split
  · rfl
  · split <;> rfl

@[simp] theorem poll_value (cell : Cell) (waker : Waker) :
    (cell.poll waker).2.value = cell.value := by
  unfold Cell.poll
  split
  · rfl
  · split <;> rfl

end Cell

namespace Cells

/-- The cell of a future was made for it, and holds this value. -/
def Holds (cells : Cells) (future : Future) (value : Option Response) : Prop :=
  ∃ cell, cells[future.cell]? = some cell ∧ cell.sequence = future.sequence ∧ cell.value = value

theorem isDone_eq (cells : Cells) (future : Future) :
    cells.isDone future = (cells.value? future).isSome := rfl

variable {cells : Cells} {future other : Future} {value held : Option Response}

namespace Holds

theorem cell_eq (holds : cells.Holds future value) {cell : Cell}
    (found : cells[future.cell]? = some cell) :
    cell.sequence = future.sequence ∧ cell.value = value := by
  obtain ⟨known, search, same⟩ := holds
  rw [search] at found
  cases found
  exact same

theorem lt_length (holds : cells.Holds future value) : future.cell < cells.length := by
  obtain ⟨cell, found, -⟩ := holds
  exact (List.getElem?_eq_some_iff.mp found).1

theorem value?_eq (holds : cells.Holds future value) : cells.value? future = value := by
  obtain ⟨cell, found, -, same⟩ := holds
  simp [Cells.value?, Cells.cell, found, same]

theorem unique (left : cells.Holds future value) (right : cells.Holds future held) :
    value = held :=
  left.value?_eq.symm.trans right.value?_eq

/-- Futures on one cell are the same future. -/
theorem future_eq (left : cells.Holds future value) (right : cells.Holds other held)
    (same : future.cell = other.cell) : future = other := by
  obtain ⟨cell, found, sequence, -⟩ := left
  rw [same] at found
  obtain ⟨known, -⟩ := right.cell_eq found
  cases future
  cases other
  simp_all

end Holds

/-! ### A new cell -/

theorem holds_fresh (cells : Cells) (sequence : Sequence) :
    (cells.fresh sequence).2.Holds (cells.fresh sequence).1 none :=
  ⟨⟨sequence, none, []⟩, by simp [fresh], rfl, rfl⟩

theorem Holds.fresh (holds : cells.Holds future value) (sequence : Sequence) :
    (cells.fresh sequence).2.Holds future value := by
  have below := holds.lt_length
  obtain ⟨cell, found, same⟩ := holds
  refine ⟨cell, ?_, same⟩
  rw [Cells.fresh, List.getElem?_append_left below]
  exact found

theorem Holds.ne_fresh (holds : cells.Holds future value) (sequence : Sequence) :
    future ≠ (cells.fresh sequence).1 := by
  intro same
  have below := holds.lt_length
  rw [same] at below
  exact Nat.lt_irrefl _ below

/-! ### Storing a response -/

/-- An empty cell takes a response and gives up the tasks that wait for it. -/
theorem Holds.resolve (holds : cells.Holds future none) (response : Response) :
    ∃ filled, cells.resolve future response = .ok ((cells.cell future).wakers, filled)
      ∧ filled.Holds future (some response)
      ∧ ∀ other held, other ≠ future → cells.Holds other held → filled.Holds other held := by
  obtain ⟨cell, found, sequence, empty⟩ := id holds
  refine ⟨cells.set future.cell { cell with value := some response, wakers := [] }, ?_, ?_, ?_⟩
  · simp [Cells.resolve, Cells.cell, found, Cell.resolve?, empty]
  · refine ⟨{ cell with value := some response, wakers := [] }, ?_, sequence, rfl⟩
    simp [List.getElem?_set_self holds.lt_length]
  · intro other held different otherHolds
    have apart : future.cell ≠ other.cell := fun same =>
      different (otherHolds.future_eq holds same.symm)
    obtain ⟨known, search, same⟩ := otherHolds
    exact ⟨known, by rwa [List.getElem?_set_ne apart], same⟩

/-! ### Polling -/

theorem Holds.poll (holds : cells.Holds future value) (polled : Future) (waker : Waker) :
    (cells.poll polled waker).2.Holds future value := by
  obtain ⟨cell, found, sequence, same⟩ := id holds
  by_cases equal : polled.cell = future.cell
  · refine ⟨(cell.poll waker).2, ?_, by rw [Cell.poll_sequence, sequence],
      by rw [Cell.poll_value, same]⟩
    obtain ⟨below, known⟩ := List.getElem?_eq_some_iff.mp found
    simp [Cells.poll, Cells.cell, equal, below, known]
  · refine ⟨cell, ?_, sequence, same⟩
    simp [Cells.poll, List.getElem?_set_ne equal, found]

end Cells

end Correlator
