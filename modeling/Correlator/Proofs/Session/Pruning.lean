import Correlator.Proofs.Client.Pruning
import Correlator.Proofs.Session.Atomicity

/-!
Contract: the prunes of a session's clients by time of submission, at the points of a run.

Owns: that such a prune parts the table at its cutoff, and what prunes come to that follow each other.

Does not own: the law of a single prune (`Correlator.Proofs.Client.Pruning`), and which requests are stale
(`Correlator.Proofs.Session.Staleness`).
-/

set_option autoImplicit false

namespace Correlator.Session.Point

variable {point : Point} {index : ClientId} {client : Client Program}

/-- Prunes by time of submission part the table and compose. At every point of a run, a live client's prune
with a cutoff comes to an end, also in a run that has it next: it drops just the requests that were submitted
before the cutoff, in whatever order they were, and leaves all else as it is. Two such prunes in a row come to
one with the later cutoff, with the two counts adding up. And any prune of a live client, unless it breaks off
since the clock is out of range, leaves as many requests to a prune of all of them as it did not count. -/
theorem pruning (found : point.machine.session.client? index = some client)
    (live : client.disposed = false) :
    (∀ cutoff, ∃ ending,
      client.Performs point.machine.session.environment (.pruneOlder cutoff) ending
      ∧ client.Drops point.machine.session.environment
          (fun row => decide (row.2.submittedAt < cutoff)) ending
      ∧ ending.environment = point.machine.session.environment
      ∧ ∀ rest, point.machine.agenda = .advance index (.pruneOlder cutoff) :: rest →
        point.machine.hooks = [] → ∃ finish, point.Leads finish
          ∧ Machine.Stepped { point.machine with agenda := rest } finish.machine index ending)
    ∧ (∀ early late, ∃ first second single,
      client.Performs point.machine.session.environment (.pruneOlder early) first
      ∧ first.client.Performs first.environment (.pruneOlder late) second
      ∧ client.Performs point.machine.session.environment (.pruneOlder (early.later late)) single
      ∧ second.client = single.client ∧ second.environment = single.environment
      ∧ ∃ earlier later, first.next = .returned (.ok (.count earlier))
        ∧ second.next = .returned (.ok (.count later))
        ∧ single.next = .returned (.ok (.count (earlier + later))))
    ∧ ∀ phase : Phase Program, phase.isPrune = true → ∃ first,
      client.Performs point.machine.session.environment phase first
      ∧ (first.next = .failed .clockOutOfRange
          ∧ (point.machine.session.environment.readClock client.clock).1 = none
        ∨ ∃ second, first.client.Performs first.environment .pruneAll second
          ∧ second.client.table = .empty
          ∧ ∃ earlier later, first.next = .returned (.ok (.count earlier))
            ∧ second.next = .returned (.ok (.count later))
            ∧ earlier + later = client.pendingCount) := by
  refine ⟨fun cutoff => ?_, fun early late => ?_, fun phase isPrune => ?_⟩
  · obtain ⟨performs, drops⟩ : client.Performs point.machine.session.environment
        (.pruneOlder cutoff) _ ∧ _ := Client.performs_drops live rfl
    exact ⟨_, performs, drops, Client.environment_eq_of_prunes rfl,
      fun rest first unhooked => Leads.here.performed first unhooked found rfl performs⟩
  · let environment := point.machine.session.environment
    obtain ⟨first, drops⟩ : client.Performs environment (.pruneOlder early) _ ∧ _ :=
      Client.performs_drops live rfl
    obtain ⟨second, dropsNext⟩ : Client.Performs _ (Client.step _ environment _).environment
        (.pruneOlder late) _ ∧ _ := Client.performs_drops (drops.live live) rfl
    obtain ⟨single, whole⟩ : client.Performs environment (.pruneOlder (early.later late)) _ ∧ _ :=
      Client.performs_drops live rfl
    obtain ⟨client_eq, counts⟩ := drops.cutoffs dropsNext whole
    refine ⟨_, _, _, first, second, single, client_eq, ?_, counts⟩
    rw [Client.environment_eq_of_prunes rfl, Client.environment_eq_of_prunes rfl,
      Client.environment_eq_of_prunes rfl]
  · obtain ⟨first, performs, ends⟩ : ∃ first, client.Performs _ phase first ∧ _ :=
      Client.exists_drops isPrune live
    refine ⟨first, performs, ends.imp_right ?_⟩
    rintro ⟨stale, drops⟩
    obtain ⟨second, dropsAll⟩ : first.client.Performs first.environment .pruneAll _ ∧ _ :=
      Client.performs_drops (drops.live live) rfl
    exact ⟨_, second, drops.emptied dropsAll⟩

/-- A point with two requests pending, of which the later one has the smaller number. -/
def unsorted : Point :=
  (((((opening solo).ask (.forceNext 0 ⟨9⟩)).next.ask (.submit 0 "first" none)).next.next.next.ask
    (.advance 0 (.ofMillis 10))).next.ask (.forceNext 0 ⟨1⟩)).next.ask (.submit 0 "second" none)
      |>.next.next.next

/-- The point in time halfway between their submissions. -/
def halfway : Moment :=
  { Moment.origin with nanos := (Span.ofMillis 5).nanos, nanos_lt := (Span.ofMillis 5).nanos_lt }

/-- There a prune of the older request leaves the one with the smaller number, and a further prune of all
requests takes that. -/
theorem pruning_unsorted :
    ∃ client first second, unsorted.machine.session.client? 0 = some client
      ∧ client.table.sequences = [⟨1⟩, ⟨9⟩]
      ∧ client.Performs unsorted.machine.session.environment (.pruneOlder halfway) first
      ∧ first.next = .returned (.ok (.count 1)) ∧ first.client.table.sequences = [⟨1⟩]
      ∧ first.client.Performs first.environment .pruneAll second
      ∧ second.next = .returned (.ok (.count 1)) ∧ second.client.table = .empty := by
  obtain ⟨client, found⟩ : ∃ client, unsorted.machine.session.client? 0 = some client := ⟨_, rfl⟩
  have live : client.disposed = false := by
    cases found
    rfl
  obtain ⟨parts, -, empties⟩ := pruning found live
  obtain ⟨first, performs, drops, -⟩ := parts halfway
  obtain ⟨same, performsAgain, ends⟩ := empties (.pruneOlder halfway) rfl
  cases performs.unique performsAgain
  have answer : first.next = .returned (.ok (.count 1)) := by
    rw [drops.answer]
    cases found
    rfl
  have left : client.table.sequences = [⟨1⟩, ⟨9⟩] ∧ first.client.table.sequences = [⟨1⟩] := by
    rw [drops.client_eq]
    cases found
    exact ⟨rfl, rfl⟩
  rcases ends with ⟨failed, -⟩ | ⟨second, performsAll, emptied, earlier, later, counted, rest, sum⟩
  · rw [answer] at failed
    cases failed
  · rw [answer] at counted
    cases counted
    have pending : client.pendingCount = 1 + 1 := by
      cases found
      rfl
    cases Nat.add_left_cancel (sum.trans pending)
    exact ⟨client, first, second, found, left.1, performs, answer, left.2, performsAll, rest, emptied⟩

end Correlator.Session.Point
