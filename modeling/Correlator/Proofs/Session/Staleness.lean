import Correlator.Proofs.Client.Pruning
import Correlator.Proofs.Session.Clock
import Correlator.Proofs.Session.Refusal

/-!
Contract: prunes of stale requests, at the points of a run.

Owns: that such a prune goes by the exact age of each request, and that it leaves nothing to a further one before
the clock moves on.

Does not own: the law of a single prune (`Correlator.Proofs.Client.Pruning`), and prunes with a cutoff
(`Correlator.Proofs.Session.Pruning`).
-/

set_option autoImplicit false

namespace Correlator.Session.Point

variable {point : Point} {index : ClientId} {client : Client Program}

/-- As long as the clock of a client shows some time, a prune of its stale requests changes nothing, whatever has
been done since this point. -/
def NoneStale (point : Point) (index : ClientId) (now : Moment) : Prop :=
  ∀ later client, point.Leads later → later.machine.session.client? index = some client →
    client.disposed = false →
    (later.machine.session.environment.readClock client.clock).1 = some now →
    ∃ ending, client.Performs later.machine.session.environment .pruneStale ending
      ∧ ending.next = .returned (.ok (.count 0)) ∧ ending.client = client

/-- Nothing becomes stale if nothing is and its clock has come to the time. What it takes in later is
younger. -/
theorem noneStale_of_young (found : point.machine.session.client? index = some client)
    {threshold : Span} (isSet : client.options.staleAfter = some threshold) {now : Moment}
    (arrived : now.toNanos
      = (point.machine.session.environment.elapsed client.clock).toNanos)
    (young : ∀ row ∈ client.table.rows, row.2.ageAt now ≤ threshold.toNanos) :
    point.NoneStale index now := by
  intro later present leads foundLater live shows
  obtain ⟨earlier, foundEarlier, options_eq, clock_eq, stamped⟩ := leads.stamped foundLater
  cases found.symm.trans foundEarlier
  obtain ⟨ending, performs, drops, -⟩ := Client.performs_pruneStale live
    (options_eq ▸ isSet) (Prod.ext shows rfl)
  refine ⟨ending, performs, drops.spared fun row member => decide_eq_false (Int.not_lt.mpr ?_)⟩
  rcases stamped row member with old | new
  · exact young row old
  · unfold Pending.Entry.ageAt
    omega

/-- Prunes of stale requests go by exact ages. At every point of a run, a live client's prune of stale requests
drops just the requests whose age exceeds the threshold, however large that is, if its clock can be read; also in
a run that has it next. Where the cutoff would lie before all points in time, there is no such request. From then
on, such a prune changes nothing as long as the clock shows the same time. And without a threshold it never
changes anything. -/
theorem staleness (found : point.machine.session.client? index = some client)
    (live : client.disposed = false) :
    (∀ threshold now timed, client.options.staleAfter = some threshold →
      point.machine.session.environment.readClock client.clock = (some now, timed) →
      ∃ ending, client.Performs point.machine.session.environment .pruneStale ending
        ∧ client.Drops point.machine.session.environment
            (fun row => decide ((threshold.toNanos : Int) < row.2.ageAt now)) ending
        ∧ ending.environment = timed
        ∧ (now.before? threshold = none →
          (∀ row ∈ client.table.rows, row.2.ageAt now < threshold.toNanos)
            ∧ ending.next = .returned (.ok (.count 0)) ∧ ending.client = client)
        ∧ (∀ rest, point.machine.agenda = .advance index .pruneStale :: rest →
          point.machine.hooks = [] → ∃ finish, point.Leads finish
            ∧ Machine.Stepped { point.machine with agenda := rest } finish.machine index ending)
        ∧ ∀ after : Point, after.machine.session.client? index = some ending.client →
          after.machine.session.environment = timed → after.NoneStale index now)
    ∧ (client.options.staleAfter = none → ∃ ending,
      client.Performs point.machine.session.environment .pruneStale ending
        ∧ ending.next = .returned (.ok (.count 0)) ∧ ending.client = client
        ∧ ending.environment = point.machine.session.environment) := by
  refine ⟨fun threshold now timed isSet read => ?_, fun unset => ?_⟩
  · obtain ⟨ending, performs, drops, environment_eq⟩ := Client.performs_pruneStale live isSet read
    refine ⟨ending, performs, drops, environment_eq, fun beyond => ?_,
      fun rest first unhooked => Leads.here.performed first unhooked found rfl performs,
      fun after foundAfter same => ?_⟩
    · have young : ∀ row ∈ client.table.rows, row.2.ageAt now < threshold.toNanos :=
        fun row _ => Client.ageAt_lt_of_before?_eq_none beyond row.2
      exact ⟨young, drops.spared fun row member =>
        decide_eq_false (Int.not_lt.mpr (Int.le_of_lt (young row member)))⟩
    · have shown := Environment.toNanos_of_readClock read
      rw [drops.client_eq] at foundAfter
      refine noneStale_of_young foundAfter isSet (by rw [same]; exact shown) fun row member => ?_
      have kept := (List.mem_filter.mp member).2
      simpa using kept
  · exact ⟨_, Client.performs_pruneStale_of_none live unset, rfl, rfl, rfl⟩

/-- A point before a prune of stale requests, with two of them pending for one and a half seconds and for
one second. -/
def aging : Point :=
  (((((opening wary).ask (.submit 0 "first" none)).next.next.next.ask
    (.advance 0 (.ofMillis 500))).next.ask (.submit 0 "second" none)).next.next.next.ask
      (.advance 0 (.ofMillis 1000))).next.ask (.pruneStale 0) |>.next

/-- There the prune drops the one that is older than a second and keeps the one that is just as old. A further
prune would drop none before the clock moves on. -/
theorem staleness_aging :
    ∃ client ending finish, aging.machine.session.client? 0 = some client
      ∧ client.table.sequences = [⟨1⟩, ⟨2⟩]
      ∧ client.Performs aging.machine.session.environment .pruneStale ending
      ∧ ending.next = .returned (.ok (.count 1)) ∧ ending.client.table.sequences = [⟨2⟩]
      ∧ aging.Leads finish ∧ finish.machine.session.client? 0 = some ending.client
      ∧ finish.NoneStale 0 ⟨1, 500000000, by decide, by decide, by decide⟩ := by
  obtain ⟨client, found⟩ : ∃ client, aging.machine.session.client? 0 = some client := ⟨_, rfl⟩
  have known : client.disposed = false ∧ client.options.staleAfter = some (.ofMillis 1000)
      ∧ client.table.sequences = [⟨1⟩, ⟨2⟩]
      ∧ aging.machine.session.environment.readClock client.clock
        = (some ⟨1, 500000000, by decide, by decide, by decide⟩,
            aging.machine.session.environment) := by
    cases found
    exact ⟨rfl, rfl, rfl, rfl⟩
  obtain ⟨live, isSet, pending, read⟩ := known
  obtain ⟨ending, performs, drops, environment_eq, -, run, settled⟩ :=
    (staleness found live).1 _ _ _ isSet read
  obtain ⟨finish, leads, stepped⟩ := run [] rfl rfl
  have foundAfter : finish.machine.session.client? 0 = some ending.client := by
    unfold Session.client?
    rw [stepped.world_eq]
    rfl
  refine ⟨client, ending, finish, found, pending, performs, ?_, ?_, leads, foundAfter,
    settled finish foundAfter ?_⟩
  · rw [drops.answer]
    cases found
    rfl
  · rw [drops.client_eq]
    cases found
    rfl
  · rw [← environment_eq]
    exact congrArg World.environment stepped.world_eq

end Correlator.Session.Point
