import Correlator.Proofs.Course.Seniority
import Correlator.Proofs.Session.Numbering
import Correlator.Proofs.Session.Pruning

/-!
Contract: the order of age among the pending requests of a session's clients.

Owns: that at every point of a run the requests of a client have been submitted in the order of their numbers, as long
as their transport numbers them itself, and that prunes then take them off the front.

Does not own: what steps do to this order (`Correlator.Proofs.Course.Seniority`), and which requests a prune drops
(`Correlator.Proofs.Client.Pruning`).
-/

set_option autoImplicit false

namespace Correlator.Session.Point

/-- The requests that a client has pending at a point of a run are in order of age. -/
structure Seniority (point : Point) (index : ClientId) (client : Client Program) : Prop where
  /-- They are listed in ascending order of their numbers, -/
  numbers : client.table.sequences.Pairwise (· < ·)
  /-- and none was submitted before one that is listed earlier. -/
  ages : client.table.rows.Pairwise fun earlier later => ¬ later.2.submittedAt < earlier.2.submittedAt
  /-- Every prune comes to an end, also in a run that has it next. It takes as many off the front of the list as it
  answers, none where it fails, and leaves the others. -/
  prunes : ∀ phase : Phase Program, phase.isPrune = true → ∃ ending front,
    client.Performs point.machine.session.environment phase ending
    ∧ client.table.rows = front ++ ending.client.table.rows
    ∧ (ending.next = .returned (.ok (.count front.length))
      ∨ front = [] ∧ (ending.next = .failed .clockOutOfRange
        ∨ ending.next = .returned (.error (.invalidHandle client.service))))
    ∧ ∀ rest, point.machine.agenda = .advance index phase :: rest → point.machine.hooks = [] →
      ∃ finish, point.Leads finish
        ∧ Machine.Stepped { point.machine with agenda := rest } finish.machine index ending

variable {session : Session} {point : Point} {transport : TransportId}

/-- A run in which no number is queued keeps the requests of a transport's clients in order, whatever is done past the
clients. -/
theorem Leads.isRanked (leads : (opening session).Leads point) (unforced : point.Unforced transport)
    (ranked : session.world.IsRanked transport) : point.machine.session.world.IsRanked transport := by
  induction leads with
  | here => exact ranked
  | ask op leads idle inductionHypothesis => exact inductionHypothesis unforced
  | @work point task agenda leads first inductionHypothesis =>
    obtain ⟨earlier, calm⟩ := unforced.of_work
    have before := inductionHypothesis earlier
    have alters := Machine.alters_carryOut { point.machine with agenda } task
    unfold Point.work Point.after
    generalize (Machine.carryOut { point.machine with agenda } task).2 = next at alters
    cases alters with
    | stores cells world_eq =>
      rw [world_eq]
      exact before.outside (before.numbers.congr rfl) (Environment.sent?_congr rfl _) (.of_eq rfl rfl)
    | acts act world_eq asked =>
      rw [world_eq]
      refine before.outside (before.numbers.apply fun sequence forces => ?_) (act.sent?_apply _ _)
        (act.precedes_apply _)
      obtain ⟨own, rfl⟩ := asked transport sequence forces
      simp [Task.forces] at calm
    | steps client phase turn made => exact before.after_step made

/-- Ages follow numbers. However many clients share a transport that has not been used, as long as no number is queued
for it and no more than `2 ^ 64 - 1` requests are sent over it, the requests that each of them has pending have been
submitted in the order of their numbers, by the client's clock. So every prune takes requests off the front of the
list, and leaves the rest of it. -/
theorem seniority (fresh : session.world.IsFresh) (leads : (opening session).Leads point)
    (unused : session.world.environment.transports[transport]? = some {})
    (unforced : point.Unforced transport) :
    ∃ loopback, point.machine.session.environment.transports[transport]? = some loopback
      ∧ (loopback.sent.length < UInt64.size → ∀ index client,
        point.machine.session.client? index = some client → client.transport = transport →
          point.Seniority index client) := by
  obtain ⟨⟨loopback, found, numbered⟩, ranked⟩ :=
    leads.isRanked unforced (World.isRanked_of_fresh fresh unused)
  refine ⟨loopback, found, fun few index client known own => ?_⟩
  have recorded : point.machine.session.world.environment.sent? transport = some loopback.sent := by
    unfold Environment.sent?
    rw [found]
    rfl
  obtain ⟨filed, -, -, ascends⟩ := ranked _ recorded few index client known own
  refine ⟨List.pairwise_map.mpr filed.ascending, ascends.imp fun before younger => ?_,
    fun phase isPrune => ?_⟩
  · rw [Moment.lt_iff_toNanos_lt] at younger
    omega
  · obtain ⟨ending, front, performs, parts, answer⟩ : ∃ ending front,
        client.Performs point.machine.session.environment phase ending ∧ _ :=
      Client.exists_front isPrune ascends
    refine ⟨ending, front, performs, parts, answer, fun rest first unhooked => ?_⟩
    exact Leads.here.performed first unhooked known rfl performs

/-- A point after two clients on one transport have sent in turn, with some time in between. -/
def staggered : Point :=
  (((((opening pair).ask (.submit 0 "first" none)).next.next.next.ask
    (.submit 1 "other" none)).next.next.next.ask (.advance 0 (.ofMillis 10))).next.ask
      (.submit 0 "second" none)).next.next.next

theorem leads_staggered : (opening pair).Leads staggered :=
  .next (.next (.next (.ask _ (.next (.ask _ (.next (.next (.next (.ask _ (.next (.next (.next
    (.ask _ .here rfl)))) rfl)))) rfl)) rfl)))

/-- There a prune takes the first of two requests off the list. -/
theorem seniority_staggered :
    ∃ client ending, staggered.machine.session.client? 0 = some client
      ∧ client.table.sequences = [⟨1⟩, ⟨3⟩]
      ∧ staggered.Seniority 0 client
      ∧ client.Performs staggered.machine.session.environment (.pruneOlder halfway) ending
      ∧ ending.client.table.sequences = [⟨3⟩] := by
  obtain ⟨loopback, found, ranked⟩ := seniority (isFresh_of_start start_pair) leads_staggered
    (show pair.world.environment.transports[0]? = some ({} : Transport.Loopback) from rfl) (by decide)
  have counted : (some loopback).map (·.sent.length) = some 3 := by
    rw [← found]
    rfl
  have sent : loopback.sent.length = 3 := Option.some.inj counted
  obtain ⟨client, known⟩ : ∃ client, staggered.machine.session.client? 0 = some client := ⟨_, rfl⟩
  have shown : client.transport = 0 ∧ client.disposed = false
      ∧ client.table.sequences = [⟨1⟩, ⟨3⟩] := by
    cases known
    exact ⟨rfl, rfl, rfl⟩
  obtain ⟨own, live, pending⟩ := shown
  have senior := ranked (by rw [sent]; decide) 0 client known own
  obtain ⟨ending, front, performs, -⟩ := senior.prunes (.pruneOlder halfway) rfl
  obtain ⟨same, drops⟩ : client.Performs staggered.machine.session.environment (.pruneOlder halfway) _ ∧ _ :=
    Client.performs_drops live rfl
  cases performs.unique same
  refine ⟨client, _, known, pending, senior, performs, ?_⟩
  rw [drops.client_eq]
  cases known
  rfl

end Correlator.Session.Point
