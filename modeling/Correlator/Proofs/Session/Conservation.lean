import Correlator.Proofs.Course.Accounts
import Correlator.Proofs.Session.Run

/-!
Contract: the conservation of requests in the runs of a session.

Owns: when a completed request has yet to be counted in a run, and that the counts of each client and the
requests under each number add up at all other points.

Does not own: the balance along courses (`Correlator.Proofs.Course.Accounts`).
-/

set_option autoImplicit false

namespace Correlator

namespace Session

/-- The next task is to count a completed request. This lies between the taking of a response and the
callback, so it is so neither between two operations nor inside a callback. -/
def Machine.isCounting (machine : Machine) : Bool :=
  machine.agenda.head?.any fun task =>
    task.operation?.any fun operation => operation.2.isCounting

namespace Point

/-- Only the operation that goes on next may have a completed request yet to be counted. -/
theorem InOrder.uncounted_eq {point : Point} (inOrder : point.InOrder) (index : ClientId) :
    uncounted (underway point.machine.agenda) index = uncounted point.operation?.toList index := by
  unfold operation?
  cases agenda : point.machine.agenda with
  | nil => rfl
  | cons first rest =>
    have calm : ∀ operation ∈ underway rest, operation.2.isCompleting = false :=
      not_completing_of_mem_underway fun task member =>
        inOrder.calm task (by simpa [agenda] using member)
    have nothing : uncounted (underway rest) index = 0 := by
      refine List.countP_eq_zero.mpr fun operation member => ?_
      rw [Phase.not_counting_of_not_completing (calm operation member), Bool.and_false]
      exact Bool.false_ne_true
    rw [underway_cons, uncounted_append, nothing]
    rfl

theorem InOrder.uncounted_eq_zero {point : Point} (inOrder : point.InOrder)
    (settled : point.machine.isCounting = false) (index : ClientId) :
    uncounted (underway point.machine.agenda) index = 0 := by
  have settled : point.operation?.any (·.2.isCounting) = false := by
    rw [← settled]
    unfold operation? Machine.isCounting
    cases point.machine.agenda.head? <;> rfl
  rw [inOrder.uncounted_eq]
  cases next : point.operation? with
  | none => rfl
  | some operation =>
    rw [next] at settled
    exact Correlator.uncounted_eq_zero operation.1 index settled

/-- No request gets lost. At every point of a run, whatever operations, failures and breaks came before
and however deep inside of callbacks it lies, the counts of every client add up modulo `2 ^ 64`, unless
a completed request is just about to be counted; and so do the requests under each number. -/
theorem conservation {session : Session} (fresh : session.world.IsFresh) {point : Point}
    (leads : (opening session).Leads point) (keeps : point.KeepsToClients) {index : ClientId}
    {client : Client Program} (found : point.machine.session.client? index = some client) :
    (point.machine.isCounting = false →
      client.tally.submitted = client.tally.completed + client.tally.cancelled
        + client.tally.pruned + UInt64.ofNat client.pendingCount)
    ∧ ∀ sequence,
      (entered point.turns index Turn.accepted).count sequence
        = (entered point.turns index Turn.matched).count sequence
          + (entered point.turns index Turn.cancelled).count sequence
          + (entered point.turns index Turn.pruned).count sequence
          + if client.table.contains sequence then 1 else 0 := by
  obtain ⟨course, led, mirrors⟩ := leads.mirrors keeps
  have known := mirrors.client? found
  have balanced := led.isBalanced fresh index client known
  constructor
  · intro settled
    have nothing := (leads.inOrder keeps).uncounted_eq_zero settled index
    rw [balanced.tally_eq, mirrors.underway, nothing]
    exact UInt64.add_zero _
  · intro sequence
    have counted := balanced.count_eq ((led.sound fresh).filed index client known) sequence
    rw [mirrors.turns] at counted
    exact counted

/-- Inside the callback, the request that it belongs to is counted. -/
theorem conservation_insideCallback :
    ∃ client, insideCallback.machine.session.client? 0 = some client
      ∧ client.tally.submitted = 1 ∧ client.tally.completed = 1
      ∧ client.tally.submitted = client.tally.completed + client.tally.cancelled
        + client.tally.pruned + UInt64.ofNat client.pendingCount
      ∧ (entered insideCallback.turns 0 Turn.accepted).count ⟨1⟩
        = (entered insideCallback.turns 0 Turn.matched).count ⟨1⟩
          + (entered insideCallback.turns 0 Turn.cancelled).count ⟨1⟩
          + (entered insideCallback.turns 0 Turn.pruned).count ⟨1⟩
          + if client.table.contains ⟨1⟩ then 1 else 0 := by
  have balance := conservation solo_isFresh leads_insideCallback (by decide)
    (show insideCallback.machine.session.client? 0 = some _ from rfl)
  exact ⟨_, rfl, rfl, rfl, balance.1 rfl, balance.2 ⟨1⟩⟩

end Point

end Session

end Correlator
