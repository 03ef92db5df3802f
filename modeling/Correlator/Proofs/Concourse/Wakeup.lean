import Correlator.Proofs.Concourse.Cell
import Correlator.Proofs.Session.Start

/-!
Contract: the tasks that poll futures.

Owns: that a task that found no response is woken, just once, when the response is stored, in the order of the first
polls, and that no task is woken otherwise.

Does not own: what readers are told (`Correlator.Proofs.Concourse.Assignment`).
-/

set_option autoImplicit false

namespace Correlator

namespace Cell

/-- The tasks that are woken by what is done to a cell. -/
def Event.woken : Event → List Waker
  | .attempted _ (.ok wakers) => wakers
  | _ => []

variable {cell : Cell} {events before after : List Event} {value : Response} {wakers : List Waker}

/-- A response that was stored is the one that the cell holds, and it woke the tasks that had polled until then. -/
theorem Lived.of_stored (lived : cell.Lived (before ++ .attempted value (.ok wakers) :: after)) :
    cell.value = some value ∧ wakers = pollers before := by
  generalize split : before ++ .attempted value (.ok wakers) :: after = events at lived
  have among : .attempted value (.ok wakers) ∈ events := by
    rw [← split]
    simp
  cases lived with
  | waiting empty vain =>
    obtain ⟨waker, same⟩ := vain _ among
    cases same
  | @filled early late known stored forgotten vain refused =>
    -- No other attempt succeeded, so that both splits are at the same place.
    rcases List.append_eq_append_iff.mp split with ⟨rest, rfl, same⟩ | ⟨rest, rfl, same⟩
    · cases rest with
      | nil =>
        rw [List.nil_append] at same
        cases same
        exact ⟨stored, by rw [List.append_nil]⟩
      | cons first rest =>
        cases same
        obtain ⟨waker, polls⟩ := vain (.attempted value (.ok wakers)) (by simp)
        cases polls
    · cases rest with
      | nil =>
        rw [List.nil_append] at same
        cases same
        exact ⟨stored, by rw [List.append_nil]⟩
      | cons first rest =>
        cases same
        rcases refused (.attempted value (.ok wakers)) (by simp) with ⟨waker, polls⟩ | ⟨other, fails⟩
        · cases polls
        · cases fails

end Cell

namespace Concourse

variable {κ : Type} {world : World κ} {concourse : Concourse κ}

/-- What a deed wakes is what it is to a cell. -/
theorem Leads.woken_eq_event (leads : (opening world).Leads concourse) :
    ∀ deed ∈ concourse.deeds,
      deed.woken = (deed.event?.map fun event => event.2.woken).getD [] := by
  intro deed member
  rw [leads.woken_eq deed member]
  have told : ∀ attempt : Attempt κ, attempt.wakers = attempt.event.2.woken := by
    intro attempt
    unfold Attempt.wakers Attempt.event Cell.Event.woken
    cases attempt.outcome <;> rfl
  cases deed with
  | polled => rfl
  | turned turn =>
    show (turn.attempt?.map Attempt.wakers).getD []
      = ((turn.attempt?.map Attempt.event).map fun event => event.2.woken).getD []
    cases turn.attempt? with
    | none => rfl
    | some attempt => exact told attempt
  | attempted attempt => exact told attempt
  | made | notified => rfl

/-- No wake-up is lost and none is spurious. Whatever clients do and whoever polls futures or completes requests
past the clients, in any order, every cell has a history of the same shape: polls that find nothing, one attempt that
stores a response, and then polls that find it and attempts that fail. As long as there is no response, just the
tasks that polled are remembered, each of them once and in the order of their first polls; the attempt that stores it
wakes just these, and from then on none is remembered. A poll finds what the cell holds, and changes nothing if there
is a response. What a deed wakes is what it does to a cell, so that attempts that fail wake no task, and neither do
operations on clients other than completes. -/
theorem faithful_wakeups (fresh : world.IsFresh) (noCells : world.environment.cells = [])
    (leads : (opening world).Leads concourse) :
    (∀ id cell, concourse.cells[id]? = some cell →
      cell.Lived (concourse.eventsOf id)
      ∧ (cell.value = none → cell.wakers.Nodup
        ∧ ∀ waker, waker ∈ cell.wakers ↔ ∃ answer, .polled waker answer ∈ concourse.eventsOf id)
      ∧ (cell.value.isSome = true → cell.wakers = [])
      ∧ (∀ before value wakers after,
        concourse.eventsOf id = before ++ .attempted value (.ok wakers) :: after →
          cell.value = some value ∧ wakers = Cell.pollers before ∧ wakers.Nodup
            ∧ ∀ waker, waker ∈ wakers ↔ ∃ answer, .polled waker answer ∈ before)
      ∧ ∀ waker, (cell.poll waker).1 = cell.value
        ∧ (cell.value.isSome = true → (cell.poll waker).2 = cell))
    ∧ (∀ deed ∈ concourse.deeds,
      deed.woken = (deed.event?.map fun event => event.2.woken).getD [])
    ∧ ∀ turn, .turned turn ∈ concourse.deeds →
      (∀ sequence value, turn.phase ≠ .complete sequence value) → turn.woken = [] := by
  have onRecord := leads.isOnRecord (isOnRecord_opening fresh noCells)
  refine ⟨fun id cell found => ?_, leads.woken_eq_event, fun turn member other => ?_⟩
  · have lived : cell.Lived (concourse.eventsOf id) := onRecord.traced.lived id cell found
    refine ⟨lived, fun empty => ?_, fun held => ?_, fun before value wakers after split => ?_, ?_⟩
    · rw [lived.wakers_eq_pollers empty]
      exact ⟨Cell.nodup_pollers _, fun waker => Cell.mem_pollers⟩
    · obtain ⟨value, known⟩ := Option.isSome_iff_exists.mp held
      exact lived.wakers_eq_nil known
    · rw [split] at lived
      obtain ⟨stored, rfl⟩ := lived.of_stored
      exact ⟨stored, rfl, Cell.nodup_pollers _, fun waker => Cell.mem_pollers⟩
    · intro waker
      unfold Cell.poll
      cases cell.value with
      | some value => exact ⟨rfl, fun _ => rfl⟩
      | none =>
        dsimp only
        split <;> exact ⟨rfl, nofun⟩
  · have woken := leads.woken_eq _ member
    have none : turn.attempt? = none := by
      unfold Turn.attempt?
      split
      next sequence value _ phase _ => exact absurd phase (other sequence value)
      next sequence value _ phase _ => exact absurd phase (other sequence value)
      next => rfl
    show turn.woken = []
    exact woken.trans (by
      show (turn.attempt?.map Attempt.wakers).getD [] = []
      rw [none]
      rfl)

/-- A client's request was polled by two tasks, by one of them twice, and then completed; after that it was polled
once more. -/
def crowded : Concourse Session.Program :=
  (((((opening Session.solo.world).enter 0 (.submit "ping" none)).next.poll ⟨0, ⟨1⟩⟩ 5).poll ⟨0, ⟨1⟩⟩ 3).poll
    ⟨0, ⟨1⟩⟩ 5).enter 0 (.complete ⟨1⟩ "pong") |>.next.poll ⟨0, ⟨1⟩⟩ 4

theorem leads_crowded : (opening Session.solo.world).Leads crowded :=
  .move (.next (.move (.move (.move (.move (.next (.move .here (.enter 0 _ rfl)))
    (.poll _ 5 (by decide))) (.poll _ 3 (by decide))) (.poll _ 5 (by decide))) (.enter 0 _ rfl)))
    (.poll _ 4 (by decide))

/-- The complete woke the two tasks, the one that had polled first before the other. -/
theorem faithful_wakeups_crowded :
    crowded.eventsOf 0
        = [.polled 5 none, .polled 3 none, .polled 5 none, .attempted "pong" (.ok [5, 3]),
          .polled 4 (some "pong")]
      ∧ (crowded.deeds.flatMap Deed.woken) = [5, 3]
      ∧ ∃ cell, crowded.cells[0]? = some cell ∧ cell.value = some "pong" ∧ cell.wakers = [] := by
  obtain ⟨cells, -, -⟩ := faithful_wakeups Session.solo_isFresh rfl leads_crowded
  obtain ⟨cell, found⟩ : ∃ cell, crowded.cells[0]? = some cell := ⟨_, rfl⟩
  obtain ⟨-, -, forgotten, stored, -⟩ := cells 0 cell found
  obtain ⟨held, -⟩ := stored [.polled 5 none, .polled 3 none, .polled 5 none] "pong" [5, 3]
    [.polled 4 (some "pong")] rfl
  exact ⟨rfl, rfl, cell, found, held, forgotten (by rw [held]; rfl)⟩

end Concourse

end Correlator
