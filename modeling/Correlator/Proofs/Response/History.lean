import Mathlib.Data.List.Induction
import Correlator.Proofs.Response.Cell

/-!
Contract: what cells live through.

Owns: the one shape that the history of a cell has, whatever tasks poll it and whoever tries to store a response
in it, and that a record of all events at any cells keeps to this shape.

Does not own: by whom cells are polled and completed (`Correlator.Proofs.Concourse.Basic`).
-/

set_option autoImplicit false

namespace Correlator

/-- What is done to a cell, with what it comes to. -/
inductive Cell.Event where
  | polled (waker : Waker) (answer : Option Response)
  /-- An attempt to store a response; if it is stored, with the tasks that are woken, in their order. -/
  | attempted (value : Response) (outcome : Except ClientError (List Waker))

namespace Cell

def Event.waker? : Event → Option Waker
  | .polled waker _ => some waker
  | .attempted _ _ => none

/-- The tasks that polled, each of them once, in the order of their first polls. -/
def pollers (events : List Event) : List Waker := (events.filterMap Event.waker?).eraseDups

/-- What a cell is like after the events that it has lived through. -/
inductive Lived : Cell → List Event → Prop where
  /-- No response is there. All events were polls, they found nothing, and just the tasks that polled are
  remembered. -/
  | waiting {cell : Cell} {events : List Event} (empty : cell.value = none)
      (vain : ∀ event ∈ events, ∃ waker, event = .polled waker none)
      (remembered : cell.wakers = pollers events) : Lived cell events
  /-- A response is there. The first attempt to store one succeeded and woke just the tasks that had polled; since
  then polls have found the response, attempts have failed, and no task is remembered. -/
  | filled {cell : Cell} {before after : List Event} {value : Response}
      (stored : cell.value = some value) (forgotten : cell.wakers = [])
      (vain : ∀ event ∈ before, ∃ waker, event = .polled waker none)
      (late : ∀ event ∈ after, (∃ waker, event = .polled waker (some value))
        ∨ ∃ other, event = .attempted other (.error (.doubleResolution cell.sequence))) :
      Lived cell (before ++ .attempted value (.ok (pollers before)) :: after)

theorem pollers_polled (events : List Event) (waker : Waker) (answer : Option Response) :
    pollers (events ++ [.polled waker answer])
      = if waker ∈ pollers events then pollers events else pollers events ++ [waker] := by
  have split : pollers (events ++ [.polled waker answer])
      = pollers events ++ ([waker].removeAll (events.filterMap Event.waker?)).eraseDups := by
    unfold pollers
    rw [List.filterMap_append, List.eraseDups_append]
    rfl
  have among : waker ∈ pollers events ↔ waker ∈ events.filterMap Event.waker? := List.mem_eraseDups
  rw [split]
  generalize events.filterMap Event.waker? = tasks at among
  by_cases known : waker ∈ tasks
  · have nothing : [waker].removeAll tasks = [] := by simp [List.removeAll, known]
    rw [if_pos (among.mpr known), nothing]
    exact List.append_nil _
  · have all : [waker].removeAll tasks = [waker] := by simp [List.removeAll, known]
    rw [if_neg (mt among.mp known), all]
    rfl

theorem pollers_attempted (events : List Event) (value : Response)
    (outcome : Except ClientError (List Waker)) :
    pollers (events ++ [.attempted value outcome]) = pollers events := by
  unfold pollers
  rw [List.filterMap_append]
  exact congrArg List.eraseDups (List.append_nil _)

theorem nodup_pollers (events : List Event) : (pollers events).Nodup := by
  induction events using List.reverseRecOn with
  | nil => exact List.nodup_nil
  | append_singleton before event inductionHypothesis =>
    cases event with
    | polled waker answer =>
      rw [pollers_polled]
      split
      next => exact inductionHypothesis
      next new =>
        refine List.nodup_append.mpr ⟨inductionHypothesis, by simp, ?_⟩
        rintro known member other single rfl
        exact new (List.mem_singleton.mp single ▸ member)
    | attempted value outcome =>
      rw [pollers_attempted]
      exact inductionHypothesis

theorem mem_pollers {events : List Event} {waker : Waker} :
    waker ∈ pollers events ↔ ∃ answer, Event.polled waker answer ∈ events := by
  unfold pollers
  rw [List.mem_eraseDups, List.mem_filterMap]
  constructor
  · rintro ⟨event, member, polls⟩
    cases event with
    | polled known answer =>
      cases polls
      exact ⟨answer, member⟩
    | attempted => cases polls
  · rintro ⟨answer, member⟩
    exact ⟨_, member, rfl⟩

namespace Lived

variable {cell : Cell} {events : List Event}

theorem new (sequence : Sequence) : Lived { sequence } [] :=
  .waiting rfl (by simp) rfl

/-- A cell with a response remembers no task. -/
theorem wakers_eq_nil (lived : cell.Lived events) {value : Response}
    (held : cell.value = some value) : cell.wakers = [] := by
  cases lived with
  | waiting empty =>
    rw [empty] at held
    cases held
  | filled stored forgotten => exact forgotten

/-- An empty cell remembers just the tasks that polled. -/
theorem wakers_eq_pollers (lived : cell.Lived events) (empty : cell.value = none) :
    cell.wakers = pollers events := by
  cases lived with
  | waiting _ vain remembered => exact remembered
  | filled stored =>
    rw [empty] at stored
    cases stored

/-! ### One event more -/

theorem poll (lived : cell.Lived events) (waker : Waker) :
    (cell.poll waker).2.Lived (events ++ [.polled waker (cell.poll waker).1]) := by
  unfold Cell.poll
  cases lived with
  | waiting empty vain remembered =>
    have still : ∀ event ∈ events ++ [Event.polled waker none], ∃ waker, event = .polled waker none := by
      intro event member
      rcases List.mem_append.mp member with old | new
      · exact vain event old
      · exact ⟨waker, List.mem_singleton.mp new⟩
    rw [empty]
    dsimp only
    split
    next known =>
      refine .waiting empty still ?_
      rw [pollers_polled, remembered, if_pos (remembered ▸ List.contains_iff_mem.mp known)]
    next new =>
      refine .waiting rfl still ?_
      rw [pollers_polled, if_neg (remembered ▸ mt List.contains_iff_mem.mpr new), remembered]
  | @filled before after value stored forgotten vain late =>
    rw [stored]
    dsimp only
    rw [List.append_assoc]
    refine .filled stored forgotten vain fun event member => ?_
    rcases List.mem_append.mp member with old | new
    · exact late event old
    · exact .inl ⟨waker, List.mem_singleton.mp new⟩

/-- An attempt to store a response in a cell. -/
theorem attempt (lived : cell.Lived events) (value : Response) :
    match cell.resolve? value with
    | some (wakers, resolved) => resolved.Lived (events ++ [.attempted value (.ok wakers)])
    | none =>
      cell.Lived (events ++ [.attempted value (.error (.doubleResolution cell.sequence))]) := by
  unfold Cell.resolve?
  cases lived with
  | waiting empty vain remembered =>
    rw [empty]
    dsimp only
    rw [remembered]
    exact .filled rfl rfl vain (by simp)
  | @filled before after known stored forgotten vain late =>
    rw [stored]
    dsimp only
    rw [List.append_assoc]
    refine .filled stored forgotten vain fun event member => ?_
    rcases List.mem_append.mp member with old | new
    · exact late event old
    · exact .inr ⟨value, List.mem_singleton.mp new⟩

end Lived

end Cell

namespace Cells

variable {cells after : Cells} {future : Future} {cell : Cell}

/-- What can happen to cells at a time. What is done to one of them is told, with the cell. -/
inductive Change (cells : Cells) : Option (CellId × Cell.Event) → Cells → Prop where
  | still : Change cells none cells
  | made (sequence : Sequence) : Change cells none (cells.fresh sequence).2
  | polled (future : Future) (waker : Waker) (known : future.cell < cells.length) :
      Change cells (some (future.cell, .polled waker (cells.poll future waker).1))
        (cells.poll future waker).2
  | filled {future : Future} {value : Response} {wakers : List Waker} {after : Cells}
      (known : future.cell < cells.length)
      (fills : cells.resolve future value = .ok (wakers, after)) :
      Change cells (some (future.cell, .attempted value (.ok wakers))) after
  | refused {future : Future} {value : Response} {error : ClientError}
      (known : future.cell < cells.length) (refuses : cells.resolve future value = .error error) :
      Change cells (some (future.cell, .attempted value (.error error))) cells

theorem cell_eq (found : cells[future.cell]? = some cell) : cells.cell future = cell := by
  unfold Cells.cell
  rw [found]
  rfl

theorem exists_cell (known : future.cell < cells.length) :
    ∃ cell, cells[future.cell]? = some cell :=
  ⟨_, List.getElem?_eq_getElem known⟩

theorem poll_eq (found : cells[future.cell]? = some cell) (waker : Waker) :
    cells.poll future waker = ((cell.poll waker).1, cells.set future.cell (cell.poll waker).2) := by
  unfold Cells.poll
  rw [cell_eq found]

theorem resolve_eq (found : cells[future.cell]? = some cell) (value : Response) :
    cells.resolve future value =
      match cell.resolve? value with
      | some (wakers, resolved) => .ok (wakers, cells.set future.cell resolved)
      | none => .error (.doubleResolution cell.sequence) := by
  obtain rfl := cell_eq found
  rfl

/-- The events at one cell that are on a record. -/
def eventsOf (id : CellId) (record : List (CellId × Cell.Event)) : List Cell.Event :=
  record.filterMap fun entry => if entry.1 = id then some entry.2 else none

theorem eventsOf_append (id : CellId) (front back : List (CellId × Cell.Event)) :
    eventsOf id (front ++ back) = eventsOf id front ++ eventsOf id back :=
  List.filterMap_append

/-- Every cell has lived through just what is on record for it, and nothing is on record for cells that there
are not. -/
structure Traced (cells : Cells) (record : List (CellId × Cell.Event)) : Prop where
  lived : ∀ (id : CellId) (cell : Cell), cells[id]? = some cell → cell.Lived (eventsOf id record)
  below : ∀ entry ∈ record, entry.1 < cells.length

theorem traced_nil : Traced [] [] := ⟨by simp, by simp⟩

namespace Traced

variable {record : List (CellId × Cell.Event)} {id : CellId}

private theorem made (traced : cells.Traced record) (sequence : Sequence) :
    (cells.fresh sequence).2.Traced record := by
  unfold Cells.fresh
  constructor
  case below =>
    intro entry member
    rw [List.length_append]
    exact Nat.lt_of_lt_of_le (traced.below entry member) (Nat.le_add_right _ _)
  case lived =>
    intro id cell found
    by_cases old : id < cells.length
    · rw [List.getElem?_append_left old] at found
      exact traced.lived id cell found
    · have none : eventsOf id record = [] := by
        refine List.filterMap_eq_nil_iff.mpr fun entry member => if_neg fun same => old ?_
        exact same ▸ traced.below entry member
      rw [List.getElem?_append_right (Nat.not_lt.mp old)] at found
      rw [none, List.mem_singleton.mp (List.mem_of_getElem? found)]
      exact .new sequence

private theorem set (traced : cells.Traced record) (found : cells[id]? = some cell)
    {event : Cell.Event} {replacement : Cell}
    (lived : replacement.Lived (eventsOf id record ++ [event])) :
    Traced (cells.set id replacement) (record ++ [(id, event)]) := by
  have below := (List.getElem?_eq_some_iff.mp found).1
  constructor
  case below =>
    intro entry member
    rw [List.length_set]
    rcases List.mem_append.mp member with old | new
    · exact traced.below entry old
    · exact List.mem_singleton.mp new ▸ below
  case lived =>
    intro other known search
    rw [eventsOf_append]
    by_cases same : id = other
    · subst same
      rw [List.getElem?_set_self below] at search
      cases search
      have own : eventsOf id [(id, event)] = [event] := by simp [eventsOf]
      rw [own]
      exact lived
    · rw [List.getElem?_set_ne same] at search
      have foreign : eventsOf other [(id, event)] = [] := by simp [eventsOf, same]
      rw [foreign, List.append_nil]
      exact traced.lived other known search

/-- Whatever happens, the record goes on to tell what each cell has lived through. -/
theorem change (traced : cells.Traced record) {event : Option (CellId × Cell.Event)}
    (change : cells.Change event after) : after.Traced (record ++ event.toList) := by
  cases change with
  | still =>
    rw [Option.toList_none, List.append_nil]
    exact traced
  | made sequence =>
    rw [Option.toList_none, List.append_nil]
    exact traced.made sequence
  | polled future waker known =>
    obtain ⟨cell, found⟩ := exists_cell known
    rw [poll_eq found]
    exact traced.set found ((traced.lived _ cell found).poll waker)
  | @filled future value wakers after known fills =>
    obtain ⟨cell, found⟩ := exists_cell known
    have lived := (traced.lived _ cell found).attempt value
    rw [resolve_eq found] at fills
    split at fills
    next remembered resolved taken =>
      rw [taken] at lived
      cases fills
      exact traced.set found lived
    next => cases fills
  | @refused future value error known refuses =>
    obtain ⟨cell, found⟩ := exists_cell known
    have lived := (traced.lived _ cell found).attempt value
    rw [resolve_eq found] at refuses
    split at refuses
    next => cases refuses
    next kept =>
      rw [kept] at lived
      cases refuses
      have same : cells.set future.cell cell = cells := by
        obtain ⟨below, rfl⟩ := List.getElem?_eq_some_iff.mp found
        exact List.set_getElem_self below
      have recorded := traced.set found lived
      rw [same] at recorded
      exact recorded

end Traced

/-- No cell ever goes away. -/
theorem Change.length_le {event : Option (CellId × Cell.Event)} (change : cells.Change event after) :
    cells.length ≤ after.length := by
  cases change with
  | still | refused => exact Nat.le_refl _
  | made sequence =>
    unfold Cells.fresh
    rw [List.length_append]
    exact Nat.le_add_right _ _
  | polled => exact Nat.le_of_eq List.length_set.symm
  | @filled future value wakers after known fills =>
    obtain ⟨cell, found⟩ := exists_cell known
    rw [resolve_eq found] at fills
    split at fills
    next =>
      cases fills
      exact Nat.le_of_eq List.length_set.symm
    next => cases fills

/-- A cell stays, with its number and with the response that it holds. -/
theorem Change.keeps {event : Option (CellId × Cell.Event)} (change : cells.Change event after)
    {id : CellId} (found : cells[id]? = some cell) :
    ∃ later, after[id]? = some later ∧ later.sequence = cell.sequence
      ∧ ∀ value, cell.value = some value → later.value = some value := by
  have replaced : ∀ (index : CellId) (before replacement : Cell), cells[index]? = some before →
      replacement.sequence = before.sequence →
      (∀ value, before.value = some value → replacement.value = some value) →
      ∃ later, (cells.set index replacement)[id]? = some later ∧ later.sequence = cell.sequence
        ∧ ∀ value, cell.value = some value → later.value = some value := by
    intro index before replacement search sequence_eq held
    by_cases same : index = id
    · subst same
      cases found.symm.trans search
      exact ⟨replacement, List.getElem?_set_self (List.getElem?_eq_some_iff.mp found).1,
        sequence_eq, held⟩
    · exact ⟨cell, by rw [List.getElem?_set_ne same, found], rfl, fun _ same => same⟩
  cases change with
  | still | refused => exact ⟨cell, found, rfl, fun _ same => same⟩
  | made sequence =>
    refine ⟨cell, ?_, rfl, fun _ same => same⟩
    unfold Cells.fresh
    rw [List.getElem?_append_left (List.getElem?_eq_some_iff.mp found).1, found]
  | polled future waker known =>
    obtain ⟨before, search⟩ := exists_cell known
    rw [poll_eq search]
    exact replaced _ before _ search (before.poll_sequence waker)
      fun value held => (before.poll_value waker).trans held
  | filled known fills =>
    obtain ⟨before, search⟩ := exists_cell known
    rw [resolve_eq search] at fills
    split at fills
    next wakers resolved taken =>
      cases fills
      unfold Cell.resolve? at taken
      split at taken
      next => cases taken
      next empty =>
        cases taken
        exact replaced _ before _ search rfl fun value held => by
          rw [empty] at held
          cases held
    next => cases fills

end Cells

end Correlator
