import Correlator.Proofs.Concourse.Cell
import Correlator.Proofs.Response.Reader
import Correlator.Proofs.Session.Start

/-!
Contract: the response that a cell is given.

Owns: that the first attempt to store a response in a cell succeeds and every later one fails, through whatever
handle; that only the callback of the first one runs; and that all readers are told its response from then on.

Does not own: the tasks that poll the cell (`Correlator.Proofs.Concourse.Wakeup`).
-/

set_option autoImplicit false

namespace Correlator

namespace Cell

def Event.attempt? : Event → Option (Response × Except ClientError (List Waker))
  | .polled _ _ => none
  | .attempted value outcome => some (value, outcome)

variable {cell : Cell} {events : List Event}

private theorem attempts_of_vain (vain : ∀ event ∈ events, ∃ waker, event = .polled waker none) :
    events.filterMap Event.attempt? = [] := by
  refine List.filterMap_eq_nil_iff.mpr fun event member => ?_
  obtain ⟨waker, rfl⟩ := vain event member
  rfl

/-- An empty cell has seen no attempt. -/
theorem Lived.attempts_of_empty (lived : cell.Lived events) (empty : cell.value = none) :
    events.filterMap Event.attempt? = [] := by
  cases lived with
  | waiting _ vain => exact attempts_of_vain vain
  | filled stored =>
    rw [empty] at stored
    cases stored

/-- The first attempt stored what the cell holds, and all others failed. -/
theorem Lived.attempts_of_held (lived : cell.Lived events) {value : Response}
    (held : cell.value = some value) :
    ∃ wakers later, events.filterMap Event.attempt? = (value, .ok wakers) :: later
      ∧ ∀ attempt ∈ later, attempt.2 = .error (.doubleResolution cell.sequence) := by
  cases lived with
  | waiting empty =>
    rw [empty] at held
    cases held
  | @filled before after known stored forgotten vain late =>
    cases held.symm.trans stored
    refine ⟨pollers before, after.filterMap Event.attempt?, ?_, ?_⟩
    · rw [List.filterMap_append, attempts_of_vain vain, List.nil_append]
      rfl
    · intro attempt member
      obtain ⟨event, inside, same⟩ := List.mem_filterMap.mp member
      rcases late event inside with ⟨waker, rfl⟩ | ⟨other, rfl⟩
      · cases same
      · cases same
        rfl

end Cell

namespace Cells

/-- Every way to read a future tells a response: readers that look are told it, however long they would have waited,
and so are readers that have waited for it. -/
structure Tells (cells : Cells) (future : Future) (value : Response) : Prop where
  isDone : cells.isDone future = true
  get : cells.value? future = some value
  poll : ∀ waker, cells.poll future waker = (some value, cells)
  wait : ∀ deadlineCame, Reader.unbounded.step (cells.cell future) deadlineCame = .told (some value)
  waitWithin : ∀ now timeout deadlineCame,
    (Reader.within now timeout).step (cells.cell future) deadlineCame = .told (some value)
  waiting : ∀ (reader : Reader) (deadlineCame : Bool) (answer : Option Response),
    (∀ known, reader ≠ .told known) →
      reader.step (cells.cell future) deadlineCame = .told answer → answer = some value

/-- No way to read a future tells a response, and any response can be stored. -/
structure IsOpen (cells : Cells) (future : Future) : Prop where
  isDone : cells.isDone future = false
  get : cells.value? future = none
  poll : ∀ waker, (cells.poll future waker).1 = none
  waiting : ∀ (reader : Reader) (deadlineCame : Bool) (answer : Option Response),
    (∀ known, reader ≠ .told known) →
      reader.step (cells.cell future) deadlineCame = .told answer → answer = none
  takes : ∀ value, ∃ wakers after, cells.resolve future value = .ok (wakers, after)
    ∧ after.Tells future value

variable {cells : Cells} {future : Future} {cell : Cell} {value : Response}

theorem tells_of_held (found : cells[future.cell]? = some cell) (held : cell.value = some value) :
    cells.Tells future value := by
  have own := cell_eq found
  constructor
  case isDone =>
    unfold Cells.isDone Cell.isDone
    rw [own, held]
    rfl
  case get =>
    unfold Cells.value?
    rw [own, held]
  case poll =>
    intro waker
    have kept : cells.set future.cell cell = cells := by
      obtain ⟨below, rfl⟩ := List.getElem?_eq_some_iff.mp found
      exact List.set_getElem_self below
    rw [poll_eq found]
    unfold Cell.poll
    rw [held]
    exact congrArg (some value, ·) kept
  case wait =>
    intro deadlineCame
    rw [own]
    exact Reader.step_looks held deadlineCame none
  case waitWithin =>
    intro now timeout deadlineCame
    rw [own]
    exact Reader.step_looks held deadlineCame _
  case waiting =>
    intro reader deadlineCame answer waits told
    rw [own] at told
    rw [Reader.told_of_step waits told, held]

theorem resolve_of_held (found : cells[future.cell]? = some cell) (held : cell.value = some value)
    (other : Response) : cells.resolve future other = .error (.doubleResolution cell.sequence) := by
  rw [resolve_eq found]
  unfold Cell.resolve?
  rw [held]

theorem isOpen_of_empty (found : cells[future.cell]? = some cell) (empty : cell.value = none) :
    cells.IsOpen future := by
  have own := cell_eq found
  constructor
  case isDone =>
    unfold Cells.isDone Cell.isDone
    rw [own, empty]
    rfl
  case get =>
    unfold Cells.value?
    rw [own, empty]
  case poll =>
    intro waker
    rw [poll_eq found]
    unfold Cell.poll
    rw [empty]
    dsimp only
    split <;> rfl
  case waiting =>
    intro reader deadlineCame answer waits told
    rw [own] at told
    rw [Reader.told_of_step waits told, empty]
  case takes =>
    intro value
    have below := (List.getElem?_eq_some_iff.mp found).1
    refine ⟨cell.wakers, cells.set future.cell { cell with value := some value, wakers := [] }, ?_,
      tells_of_held (List.getElem?_set_self below) rfl⟩
    rw [resolve_eq found]
    unfold Cell.resolve?
    rw [empty]

end Cells

namespace Concourse

variable {κ : Type} {world : World κ} {start concourse : Concourse κ} {id : CellId} {cell : Cell}
  {value : Response}

/-- The attempts to store a response in one cell, by clients and past them. -/
def attemptsAt (concourse : Concourse κ) (id : CellId) : List (Attempt κ) :=
  (concourse.deeds.flatMap fun deed => deed.attempt?.toList).filter fun attempt =>
    attempt.future.cell = id

/-- The attempts at a cell are on record. -/
theorem attempts_eventsOf (concourse : Concourse κ) (id : CellId) :
    (concourse.eventsOf id).filterMap Cell.Event.attempt?
      = (concourse.attemptsAt id).map fun attempt =>
          (attempt.value, attempt.outcome.map Prod.fst) := by
  have one : ∀ attempt : Attempt κ,
      ([attempt.event].filterMap fun entry => if entry.1 = id then some entry.2 else none).filterMap
          Cell.Event.attempt?
        = ([attempt].filter fun attempt => attempt.future.cell = id).map fun attempt =>
            (attempt.value, attempt.outcome.map Prod.fst) := by
    intro attempt
    by_cases own : attempt.future.cell = id <;>
      simp [Attempt.event, own, Cell.Event.attempt?]
  have each : ∀ deed : Deed κ,
      (deed.event?.toList.filterMap fun entry => if entry.1 = id then some entry.2 else none).filterMap
          Cell.Event.attempt?
        = (deed.attempt?.toList.filter fun attempt => attempt.future.cell = id).map fun attempt =>
            (attempt.value, attempt.outcome.map Prod.fst) := by
    intro deed
    cases deed with
    | polled future waker answer =>
      by_cases own : future.cell = id <;>
        simp [Deed.event?, Deed.attempt?, own, Cell.Event.attempt?]
    | turned turn =>
      show ((turn.attempt?.map Attempt.event).toList.filterMap _).filterMap _
        = (turn.attempt?.toList.filter _).map _
      cases turn.attempt? with
      | none => rfl
      | some attempt => exact one attempt
    | attempted attempt => exact one attempt
    | made | notified => rfl
  unfold eventsOf record attemptsAt Cells.eventsOf
  generalize concourse.deeds = deeds
  induction deeds with
  | nil => rfl
  | cons deed rest inductionHypothesis =>
    rw [List.flatMap_cons, List.flatMap_cons, List.filterMap_append, List.filterMap_append,
      List.filter_append, List.map_append, inductionHypothesis, each]

/-- The callbacks that are free to run for a cell come from the attempts at it. -/
theorem filter_freed (concourse : Concourse κ) (id : CellId) :
    (concourse.freed.filter fun call => call.1.cell = id)
      = (concourse.attemptsAt id).flatMap fun attempt => attempt.call?.toList := by
  have own : ∀ (attempt : Attempt κ), ∀ call ∈ attempt.call?.toList, call.1 = attempt.future := by
    intro attempt call member
    unfold Attempt.call? at member
    split at member
    next wakers callback outcome =>
      obtain ⟨known, -, rfl⟩ := Option.map_eq_some_iff.mp (Option.mem_toList.mp member)
      rfl
    next => cases member
  have each : ∀ deed : Deed κ, (deed.frees?.toList.filter fun call => call.1.cell = id)
      = (deed.attempt?.toList.filter fun attempt => attempt.future.cell = id).flatMap
          fun attempt => attempt.call?.toList := by
    intro deed
    unfold Deed.frees?
    cases deed.attempt? with
    | none => rfl
    | some attempt =>
      show (attempt.call?.toList.filter _) = ([attempt].filter _).flatMap _
      by_cases here : attempt.future.cell = id
      · rw [List.filter_eq_self.mpr fun call member => by rw [own attempt call member]; simpa using here]
        simp [here]
      · rw [List.filter_eq_nil_iff.mpr fun call member => by rw [own attempt call member]; simpa using here]
        simp [here]
  unfold freed attemptsAt
  generalize concourse.deeds = deeds
  induction deeds with
  | nil => rfl
  | cons deed rest inductionHypothesis =>
    rw [List.flatMap_cons, List.flatMap_cons, List.filter_append, List.filter_append,
      List.flatMap_append, inductionHypothesis, each]

/-- A callback that ran or has yet to run was freed by an attempt. -/
theorem Leads.mem_freed (leads : (opening world).Leads concourse) {call : Future × κ}
    (member : call ∈ concourse.ran ++ concourse.due) : call ∈ concourse.freed := by
  classical
  have account := leads.ran_le fun known => decide (known = call)
  rw [← List.countP_append] at account
  have there : 0 < (concourse.ran ++ concourse.due).countP fun known => decide (known = call) :=
    List.countP_pos_iff.mpr ⟨call, member, decide_eq_true rfl⟩
  obtain ⟨known, inside, same⟩ := List.countP_pos_iff.mp (Nat.lt_of_lt_of_le there account)
  exact of_decide_eq_true same ▸ inside

/-- Each attempt at a cell used up an entry for it. -/
theorem length_attemptsAt (concourse : Concourse κ) (id : CellId) :
    (concourse.attemptsAt id).length = concourse.spent.countP fun future => future.cell = id := by
  have all : concourse.spent
      = (concourse.deeds.flatMap fun deed => deed.attempt?.toList).map Attempt.future := by
    unfold spent
    rw [List.map_flatMap]
    exact List.flatMap_congr fun deed _ => by
      unfold Deed.spends
      cases deed.attempt? <;> rfl
  unfold attemptsAt
  rw [all, List.countP_map, ← List.countP_eq_length_filter]
  rfl

/-- What has become of the attempts at a cell with a response. -/
theorem attemptsAt_of_held (onRecord : concourse.IsOnRecord)
    (found : concourse.cells[id]? = some cell) (held : cell.value = some value) :
    ∃ first later, concourse.attemptsAt id = first :: later ∧ first.value = value
      ∧ (∃ wakers callback, first.outcome = .ok (wakers, callback))
      ∧ ∀ attempt ∈ later, attempt.outcome = .error (.doubleResolution cell.sequence) := by
  have lived : cell.Lived (concourse.eventsOf id) := onRecord.traced.lived id cell found
  obtain ⟨wakers, others, attempts_eq, refused⟩ := lived.attempts_of_held held
  rw [attempts_eventsOf] at attempts_eq
  obtain ⟨first, later, split, first_eq, later_eq⟩ := List.map_eq_cons_iff.mp attempts_eq
  obtain ⟨value_eq, outcome_eq⟩ := Prod.mk.inj first_eq
  refine ⟨first, later, split, value_eq, ?_, fun attempt member => ?_⟩
  · cases outcome : first.outcome with
    | error error =>
      rw [outcome] at outcome_eq
      cases outcome_eq
    | ok granted => exact ⟨granted.1, granted.2, rfl⟩
  · have fails := refused (attempt.value, attempt.outcome.map Prod.fst)
      (later_eq ▸ List.mem_map_of_mem member)
    cases outcome : attempt.outcome with
    | error error =>
      rw [outcome] at fails
      cases fails
      rfl
    | ok granted =>
      rw [outcome] at fails
      cases fails

/-- A response is assigned once, through whatever handle. In every concourse, in which clients, tables and entries
of any number share cells, a cell without a response has seen no attempt, and the first one will succeed. A cell with
a response has it from the first attempt; every later one failed with the number of the cell, and used up its entry
all the same, so that there were never more attempts than entries. Of the callbacks of all those entries at most one
ran or will run, and it is the one of the first attempt. The response stays ever after, and every reader of every
future on the cell is told it, at once or whenever its wait ends. -/
theorem single_assignment (fresh : world.IsFresh) (noCells : world.environment.cells = [])
    (leads : (opening world).Leads concourse) (found : concourse.cells[id]? = some cell) :
    (cell.value = none →
      concourse.attemptsAt id = []
      ∧ (∀ call ∈ concourse.ran ++ concourse.due, call.1.cell ≠ id)
      ∧ ∀ future : Future, future.cell = id → concourse.cells.IsOpen future)
    ∧ (∀ value, cell.value = some value →
      (∃ first later, concourse.attemptsAt id = first :: later ∧ first.value = value
        ∧ (∃ wakers callback, first.outcome = .ok (wakers, callback))
        ∧ (∀ attempt ∈ later, attempt.outcome = .error (.doubleResolution cell.sequence))
        ∧ ∀ call ∈ concourse.ran ++ concourse.due, call.1.cell = id → first.call? = some call)
      ∧ ((concourse.ran ++ concourse.due).countP fun call => call.1.cell = id) ≤ 1
      ∧ ∀ after, concourse.Leads after → ∃ same, after.cells[id]? = some same
        ∧ same.value = some value ∧ same.sequence = cell.sequence
        ∧ ∀ future : Future, future.cell = id → after.cells.Tells future value
          ∧ ∀ other, after.cells.resolve future other
            = .error (.doubleResolution cell.sequence))
    ∧ (concourse.stock.countP fun future => future.cell = id) + (concourse.attemptsAt id).length
      ≤ concourse.made.countP fun future => future.cell = id := by
  have onRecord := leads.isOnRecord (isOnRecord_opening fresh noCells)
  have calls := filter_freed concourse id
  have among : ∀ call ∈ concourse.ran ++ concourse.due, call.1.cell = id →
      call ∈ (concourse.attemptsAt id).flatMap fun attempt => attempt.call?.toList := by
    intro call member here
    rw [← calls]
    exact List.mem_filter.mpr ⟨leads.mem_freed member, decide_eq_true here⟩
  refine ⟨fun empty => ?_, fun value held => ?_, ?_⟩
  · have lived : cell.Lived (concourse.eventsOf id) := onRecord.traced.lived id cell found
    have none : concourse.attemptsAt id = [] := by
      have nothing := lived.attempts_of_empty empty
      rw [attempts_eventsOf] at nothing
      exact List.map_eq_nil_iff.mp nothing
    refine ⟨none, fun call member here => ?_, fun future here => ?_⟩
    · have freed := among call member here
      rw [none] at freed
      cases freed
    · subst here
      exact Cells.isOpen_of_empty found empty
  · obtain ⟨first, later, split, value_eq, stored, refused⟩ := attemptsAt_of_held onRecord found held
    have only : ((concourse.attemptsAt id).flatMap fun attempt => attempt.call?.toList)
        = first.call?.toList := by
      rw [split, List.flatMap_cons, List.flatMap_eq_nil_iff.mpr fun attempt member => by
        unfold Attempt.call?
        rw [refused attempt member]
        rfl]
      exact List.append_nil _
    refine ⟨⟨first, later, split, value_eq, stored, refused, fun call member here => ?_⟩, ?_,
      fun after onward => ?_⟩
    · exact Option.mem_toList.mp (only ▸ among call member here)
    · have account := leads.ran_le fun call => call.1.cell = id
      rw [← List.countP_append, List.countP_eq_length_filter (l := concourse.freed), calls, only]
        at account
      exact Nat.le_trans account (by cases first.call? <;> simp)
    · obtain ⟨same, search, sequence_eq, kept⟩ := onward.holds onRecord found
      refine ⟨same, search, kept value held, sequence_eq, fun future here => ?_⟩
      subst here
      refine ⟨Cells.tells_of_held search (kept value held), fun other => ?_⟩
      rw [Cells.resolve_of_held search (kept value held), sequence_eq]
  · rw [length_attemptsAt]
    exact onRecord.balanced _

/-- A client's request with a callback, for whose future an entry with another callback was made, was completed
through this entry, and then by the client once more. -/
def contested : Concourse Session.Program :=
  ((((opening Session.solo.world).enter 0 (.submit "ping" (some [.submit 0 "again" none]))).next.make
    ⟨⟨0, ⟨1⟩⟩, some [.pendingCount 0], .origin⟩).settle "first").tell.enter 0 (.complete ⟨1⟩ "second")
      |>.next

theorem leads_contested : (opening Session.solo.world).Leads contested :=
  .next (.move (.tell (.settle (.move (.next (.move .here (.enter 0 _ rfl)))
    (.make _ (by decide))) "first")) (.enter 0 _ rfl))

/-- The client's attempt failed there, its entry is used up, and only the callback of the other entry ran. Every
reader of the future will be told the first response. -/
theorem single_assignment_contested :
    contested.attemptsAt 0
        = [⟨⟨0, ⟨1⟩⟩, "first", .ok ([], some [.pendingCount 0])⟩,
          ⟨⟨0, ⟨1⟩⟩, "second", .error (.doubleResolution ⟨1⟩)⟩]
      ∧ contested.ran ++ contested.due = [(⟨0, ⟨1⟩⟩, [.pendingCount 0])]
      ∧ contested.stock = []
      ∧ ∀ after, contested.Leads after → after.cells.Tells ⟨0, ⟨1⟩⟩ "first" := by
  obtain ⟨cell, found⟩ : ∃ cell, contested.cells[0]? = some cell := ⟨_, rfl⟩
  have held : cell.value = some "first" := by
    cases found
    rfl
  obtain ⟨-, -, stays⟩ :=
    (single_assignment Session.solo_isFresh rfl leads_contested found).2.1 "first" held
  refine ⟨rfl, rfl, rfl, fun after onward => ?_⟩
  obtain ⟨same, -, -, -, told⟩ := stays after onward
  exact (told ⟨0, ⟨1⟩⟩ rfl).1

end Concourse

end Correlator
