import Correlator.Proofs.Course.Capacity
import Correlator.Proofs.Session.Run

/-!
Contract: the limit on the pending requests of a session's clients.

Owns: what the limit in a client's options means at every point of a run, also inside of callbacks.

Does not own: what a single step and a course make of the limit (`Correlator.Proofs.Course.Capacity`).
-/

set_option autoImplicit false

namespace Correlator.Session.Point

/-- What a limit means for a client at a point of a run. -/
structure KeepsLimit (point : Point) (index : ClientId) (client : Client Program) (limit : Nat) :
    Prop where
  within : client.pendingCount ≤ limit
  /-- A live client refuses a request for the number of pending ones if it has come to the limit, and then it
  asks neither transport nor clock, and changes nothing. -/
  refuses : client.disposed = false → ∀ request callback,
    let step := client.step point.machine.session.environment (.submit request callback)
    (step.next.exceedsCapacity = true ↔ client.pendingCount = limit)
      ∧ (step.next.exceedsCapacity = true →
        step = ⟨client, point.machine.session.environment,
          [.locked, .logged (.capacityReached limit), .unlocked],
          .returned (.error (.capacityExceeded client.service limit))⟩)
  /-- Since an entry was taken out, no request is refused for the number of pending ones until one is accepted. -/
  admits : ∀ before turn later, point.turns = before ++ turn :: later → turn.client = index →
    turn.frees = true → entered later index Turn.accepted = [] → ∀ request callback,
      (client.step point.machine.session.environment
        (.submit request callback)).next.exceedsCapacity = false

section Capacity

variable {session : Session} {point : Point}

/-- Capacity. At every point of a run, also inside of callbacks, a client has the options that it was put together
with. If they set a limit, the client keeps to it; if not, it refuses no request for the number of pending ones. -/
theorem capacity (fresh : session.world.IsFresh) (leads : (opening session).Leads point)
    (keeps : point.KeepsToClients) {index : ClientId} {origin client : Client Program}
    (built : session.client? index = some origin)
    (found : point.machine.session.client? index = some client) :
    client.options = origin.options
      ∧ (∀ limit, origin.options.maxPending = some limit → point.KeepsLimit index client limit)
      ∧ (origin.options.maxPending = none → ∀ request callback,
        (client.step point.machine.session.environment
          (.submit request callback)).next.exceedsCapacity = false) := by
  obtain ⟨course, led, mirrors⟩ := leads.mirrors keeps
  have same := mirrors.client? found
  have options_eq := led.options_eq built same
  have exit := fun request callback =>
    client.exit_step point.machine.session.environment (.submit request callback)
  refine ⟨options_eq, fun limit built => ?_, fun unlimited request callback => ?_⟩
  · have allowed : client.options.maxPending = some limit := by rw [options_eq, built]
    have within := led.withinLimit fresh same
    refine ⟨within limit allowed, fun live request callback => ⟨?_, fun exceeds => ?_⟩, ?_⟩
    · rw [(exit request callback).exceedsCapacity_iff, within.reached?_iff allowed]
      exact ⟨And.right, And.intro live⟩
    · obtain ⟨-, known, reached⟩ := (exit request callback).exceedsCapacity_iff.mp exceeds
      cases allowed.symm.trans (Client.reached?_eq_some_iff.mp reached).1
      exact (exit request callback).eq_of_reached live reached
    · rintro before turn later split rfl frees refuses request callback
      have room := led.room_of_frees fresh (mirrors.turns.trans split) frees refuses same
      exact (exit request callback).admits_of_room room
  · refine (exit request callback).admits_of_room ?_
    unfold Client.reached?
    rw [options_eq, unlimited]
    rfl

end Capacity

/-- A session with one client that allows a single pending request. -/
def narrow : Session :=
  { world :=
      { clients := [newcomer "echo" 0 { maxPending := some 1 }]
        environment := { transports := [{}], tokens := TokenShelf.empty.fresh.2 } }
    shutdown := TokenShelf.empty.fresh.1 }

theorem start_narrow :
    start [{ service := "echo", options := .given { maxPending := some 1 }, transport := 0 }] {}
      = .ok narrow := by
  rfl

/-- A point at which a request is pending whose callback is to submit another one. -/
def crowded : Point :=
  ((opening narrow).ask (.submit 0 "first" (some [.submit 0 "second" none]))).next.next.next

theorem leads_crowded : (opening narrow).Leads crowded := .next (.next (.next (.ask _ .here rfl)))

/-- The point inside of the callback, where the other request is about to be submitted. -/
def relieved : Point :=
  (crowded.ask (.complete 0 (.number ⟨1⟩) "pong")).next.next.next.next.next

theorem leads_relieved : (opening narrow).Leads relieved :=
  leads_crowded.trans (.next (.next (.next (.next (.next (.ask _ .here rfl))))))

/-- With the first request pending no other is admitted; inside of its callback one is again. -/
theorem capacity_crowded :
    (∃ client, crowded.machine.session.client? 0 = some client ∧ ∀ request callback,
      (client.step crowded.machine.session.environment (.submit request callback)).effects
        = [.locked, .logged (.capacityReached 1), .unlocked])
    ∧ ∃ client, relieved.machine.session.client? 0 = some client ∧ ∀ request callback,
      (client.step relieved.machine.session.environment
        (.submit request callback)).next.exceedsCapacity = false := by
  have fresh := isFresh_of_start start_narrow
  obtain ⟨-, full, -⟩ := capacity fresh leads_crowded (by decide)
    (show narrow.client? 0 = some _ from rfl)
    (show crowded.machine.session.client? 0 = some _ from rfl)
  obtain ⟨-, free, -⟩ := capacity fresh leads_relieved (by decide)
    (show narrow.client? 0 = some _ from rfl)
    (show relieved.machine.session.client? 0 = some _ from rfl)
  refine ⟨⟨_, rfl, fun request callback => ?_⟩, ⟨_, rfl, ?_⟩⟩
  · obtain ⟨refused, quiet⟩ := (full 1 rfl).refuses rfl request callback
    rw [quiet (refused.mpr rfl)]
  · exact (free 1 rfl).admits (relieved.turns.take 1) (relieved.turns.get ⟨1, by decide⟩)
      (relieved.turns.drop 2) rfl rfl rfl rfl

end Correlator.Session.Point
