import Correlator.Proofs.Session.LifeCycle

/-!
Contract: what a cancellation takes out.

Owns: the law that a cancellation is about the request of its future, when it holds, and what happens
when another request is pending under the same number.

Does not own: the ways in which a step can end (`Correlator.Proofs.Client.Exit`).
-/

set_option autoImplicit false

namespace Correlator

variable {κ : Type}

namespace Client

variable {client : Client κ} {environment : Environment} {future : Future} {step : Step κ}

/-- The law of a cancellation: it succeeds only by taking out the entry that was made with its future,
and if there is none it answers so and changes nothing. -/
structure CancelsOwn (client : Client κ) (future : Future) (step : Step κ) : Prop where
  own : step.next = .returned (.ok (.flag true)) →
    ∃ entry, client.table.find? future.sequence = some entry ∧ entry.future = future
      ∧ step.client.table = client.table.erase future.sequence
      ∧ Effect.removed future .cancelled ∈ step.effects
  absent : (∀ callback, ¬ client.table.Tracks future callback) →
    step.next = .returned (.ok (.flag false)) ∧ step.client.table = client.table
      ∧ step.client.tally = client.tally

/-- A cancellation takes out the request of another future. -/
structure CancelsOther (client : Client κ) (other : Future) (step : Step κ) : Prop where
  answer : step.next = .returned (.ok (.flag true))
  table_eq : step.client.table = client.table.erase other.sequence
  tally_eq : step.client.tally = client.tally.add 1 .cancelled
  effect : Effect.removed other .cancelled ∈ step.effects

/-- What a live client's cancellation comes to is decided by the entry under the number of its
future. -/
theorem Exit.cancels (exit : client.Exit environment (.cancel future) step)
    (filed : client.table.Filed) (live : client.disposed = false) :
    (client.table.contains future.sequence = false ∧ step.next = .returned (.ok (.flag false))
        ∧ step.client = client)
      ∨ ∃ entry, client.table.find? future.sequence = some entry
        ∧ client.CancelsOther entry.future step := by
  cases exit with
  | gone disposed begins =>
    rw [live] at disposed
    cases disposed
  | missed live absent => exact Or.inl ⟨absent, rfl, rfl⟩
  | @cancelled _ entry live found =>
    refine Or.inr ⟨entry, found, rfl, ?_, rfl, ?_⟩
    · rw [filed.sequence_of_find? found]
      rfl
    · simp
  | pruned live prunes => cases prunes
  | aside isAside client_eq cells_eq effects next => cases isAside

end Client

namespace Session.Point

variable {session : Session} {point : Point} {index : ClientId} {client : Client Program}

/-- Another request that the client accepted is pending under the number of a future. -/
def Shadowed (point : Point) (index : ClientId) (future other : Future) : Prop :=
  other ≠ future ∧ other.sequence = future.sequence ∧ point.Stands index other .pending
    ∧ ∃ turn ∈ point.turns, ∃ callback, turn.Accepts index callback other

theorem accepted_of_tracks (leads : (opening session).Leads point) (keeps : point.KeepsToClients)
    (fresh : session.world.IsFresh) {future : Future} {callback : Option Program}
    (tracked : point.machine.session.world.Tracks index future callback) :
    ∃ turn ∈ point.turns, turn.Accepts index callback future := by
  obtain ⟨course, led, mirrors⟩ := leads.mirrors keeps
  obtain ⟨stage, atStage⟩ := (led.sound fresh).staged future
  have pending := (atStage.tracks index callback).mp (mirrors.world ▸ tracked)
  refine accepted_of_told mirrors ?_
  rw [atStage.life, pending]
  exact List.mem_cons_self

theorem tracks_iff_stands (found : point.machine.session.client? index = some client)
    (future : Future) :
    (∃ callback, client.table.Tracks future callback) ↔ point.Stands index future .pending := by
  constructor
  · rintro ⟨callback, tracked⟩
    exact ⟨callback, client, found, tracked⟩
  · rintro ⟨callback, known, search, tracked⟩
    cases found.symm.trans search
    exact ⟨callback, tracked⟩

/-- Of the requests pending under one number there is only one. -/
theorem Shadowed.find?_eq {future other : Future} (shadowed : point.Shadowed index future other)
    (filed : client.table.Filed) (found : point.machine.session.client? index = some client) :
    ∃ entry, client.table.find? future.sequence = some entry ∧ entry.future = other := by
  obtain ⟨-, number, pending, -⟩ := shadowed
  have tracked := (tracks_iff_stands found other).mpr pending
  rw [filed.tracks_iff, number] at tracked
  exact tracked

/-- Without another request under its number, the entry there is the future's own. -/
private theorem future_eq_of_alone (leads : (opening session).Leads point)
    (keeps : point.KeepsToClients) (fresh : session.world.IsFresh) (filed : client.table.Filed)
    (found : point.machine.session.client? index = some client) {future : Future}
    (alone : ∀ other, ¬ point.Shadowed index future other) {entry : Pending.Entry Program}
    (search : client.table.find? future.sequence = some entry) : entry.future = future := by
  by_contra different
  have tracked := filed.tracks_of_find? search
  have pending := (tracks_iff_stands found entry.future).mp ⟨_, tracked⟩
  obtain ⟨turn, made, accepts⟩ := accepted_of_tracks leads keeps fresh ⟨client, found, tracked⟩
  exact alone entry.future
    ⟨different, filed.sequence_of_find? search, pending, turn, made, _, accepts⟩

/-- What a cancellation takes out, at every point of a run. On a client that is disposed of it only
answers so. On a live one it keeps to the request of its future, unless the client has another request
pending under the same number; then it takes out that one. -/
theorem cancellation (fresh : session.world.IsFresh) (leads : (opening session).Leads point)
    (keeps : point.KeepsToClients) (found : point.machine.session.client? index = some client)
    (future : Future) :
    (client.disposed = true →
      (client.step point.machine.session.environment (.cancel future)).next
          = .returned (.error (.invalidHandle client.service))
        ∧ (client.step point.machine.session.environment (.cancel future)).client = client)
    ∧ (client.disposed = false →
      (client.CancelsOwn future (client.step point.machine.session.environment (.cancel future)) ↔
          ∀ other, ¬ point.Shadowed index future other)
        ∧ ∀ other, point.Shadowed index future other →
          client.CancelsOther other
            (client.step point.machine.session.environment (.cancel future))) := by
  have filed := filed_of_leads leads keeps fresh found
  constructor
  · intro disposed
    simp [Client.step, Client.whileLive, disposed]
  intro live
  have cancels := (client.exit_step point.machine.session.environment (.cancel future)).cancels
    filed live
  generalize client.step point.machine.session.environment (.cancel future) = step at cancels
  have others : ∀ other, point.Shadowed index future other → client.CancelsOther other step := by
    intro other shadowed
    obtain ⟨entry, search, rfl⟩ := shadowed.find?_eq filed found
    rcases cancels with ⟨absent, -, -⟩ | ⟨known, same, cancelled⟩
    · rw [Pending.Table.contains_of_find? search] at absent
      cases absent
    · cases search.symm.trans same
      exact cancelled
  refine ⟨⟨fun law other shadowed => ?_, fun alone => ?_⟩, others⟩
  · obtain ⟨entry, search, own, -⟩ := law.own (others other shadowed).answer
    obtain ⟨known, same, isOther⟩ := shadowed.find?_eq filed found
    cases search.symm.trans same
    exact shadowed.1 (isOther.symm.trans own)
  · rcases cancels with ⟨absent, answer, client_eq⟩ | ⟨entry, search, cancelled⟩
    · constructor
      · intro answered
        rw [answer] at answered
        cases answered
      · exact fun _ => ⟨answer, congrArg Client.table client_eq, congrArg Client.tally client_eq⟩
    · have own := future_eq_of_alone leads keeps fresh filed found alone search
      subst own
      constructor
      · exact fun _ => ⟨entry, search, rfl, cancelled.table_eq, cancelled.effect⟩
      · exact fun untracked => absurd (filed.tracks_of_find? search) (untracked entry.callback)

/-- A point at which a number is in use for the second time. -/
def reused : Point :=
  ((((opening solo).ask (.submit 0 "first" none)).next.next.next.ask
    (.complete 0 (.number ⟨1⟩) "done")).next.next.next.ask
      (.forceNext 0 ⟨1⟩)).next.ask (.submit 0 "second" none) |>.next.next.next

theorem leads_reused : (opening solo).Leads reused :=
  .next (.next (.next (.ask _ (.next (.ask _ (.next (.next (.next (.ask _
    (.next (.next (.next (.ask _ .here rfl)))) rfl)))) rfl)) rfl)))

/-- The request of the future is completed; its cancellation takes out the second request. -/
theorem cancellation_reused :
    ∃ client, reused.machine.session.client? 0 = some client
      ∧ reused.Stands 0 ⟨0, ⟨1⟩⟩ (.left .completed)
      ∧ client.CancelsOther ⟨1, ⟨1⟩⟩
        (client.step reused.machine.session.environment (.cancel ⟨0, ⟨1⟩⟩)) := by
  refine ⟨_, rfl, List.mem_singleton.mpr rfl, ?_⟩
  refine ((cancellation solo_isFresh leads_reused (by decide)
    (show reused.machine.session.client? 0 = some _ from rfl) ⟨0, ⟨1⟩⟩).2 rfl).2 ⟨1, ⟨1⟩⟩
    ⟨by decide, rfl, ?_, ?_⟩
  · exact ⟨none, _, rfl, _, List.mem_singleton.mpr rfl, rfl, rfl⟩
  · exact ⟨_, List.mem_of_getElem? (i := 3) rfl, none, rfl, rfl, _, rfl⟩

/-- So the law of a cancellation fails there. -/
theorem not_cancelsOwn_reused :
    ¬ ∀ client, reused.machine.session.client? 0 = some client →
      client.CancelsOwn ⟨0, ⟨1⟩⟩
        (client.step reused.machine.session.environment (.cancel ⟨0, ⟨1⟩⟩)) := by
  intro law
  obtain ⟨entry, found, own, -⟩ := (law _ rfl).own rfl
  cases found
  cases own

end Session.Point

end Correlator
