import Correlator.Proofs.Client.Setback
import Correlator.Proofs.Session.Cancellation

/-!
Contract: what becomes of the response to a request that was rejected because its number was taken.

Owns: that such a request was sent, which request had its number, and where a response under that number
ends up afterwards.

Does not own: what a complete does in general (`Client.Answers`). The client cannot tell the response to
a rejected request from the response to the request that has its number; the law that it is reported as
unmatched therefore holds only while no request is pending under the number.
-/

set_option autoImplicit false

namespace Correlator

variable {κ : Type}

namespace Client

variable {client : Client κ} {environment : Environment} {phase : Phase κ} {step : Step κ}

/-- A delivery is reported and counted as unmatched, and changes nothing else. -/
structure Reports (client : Client κ) (environment : Environment) (sequence : Sequence)
    (step : Step κ) : Prop where
  answer : step.next = .returned (.error (.unmatchedResponse client.service sequence))
  client_eq : step.client = client.count .unmatched 1
  environment_eq : step.environment = environment

/-- A delivery ends up with the request of a future. -/
structure Delivers (future : Future) (response : Response) (step : Step κ) : Prop where
  answer : ∃ callback, step.next = .goesOn (.countCompleted ⟨future, callback⟩)
  value : step.environment.cells.value? future = some response

/-- Where a response ends up is decided by what is pending under its number. -/
theorem Answers.reports_iff {sequence : Sequence} {response : Response}
    (answers : client.Answers environment sequence response step) (filed : client.table.Filed) :
    client.Reports environment sequence step ↔
      ∀ other : Future, other.sequence = sequence →
        ¬ ∃ callback, client.table.Tracks other callback := by
  constructor
  · intro reports other number tracked
    obtain ⟨entry, found, -⟩ := (filed.tracks_iff other).mp tracked
    obtain ⟨goesOn, -⟩ := answers.matched entry (number ▸ found)
    rw [reports.answer] at goesOn
    cases goesOn
  · intro alone
    have absent : client.table.contains sequence = false := by
      by_contra present
      have contained : client.table.contains sequence = true := by simpa using present
      obtain ⟨entry, found⟩ := Option.isSome_iff_exists.mp contained
      exact alone entry.future (filed.sequence_of_find? found)
        ⟨entry.callback, filed.tracks_of_find? found⟩
    obtain ⟨answer, client_eq, environment_eq⟩ := answers.unmatched absent
    exact ⟨answer, client_eq, environment_eq⟩

theorem Answers.delivers {sequence : Sequence} {response : Response}
    (answers : client.Answers environment sequence response step) (filed : client.table.Filed)
    {other : Future} (number : other.sequence = sequence)
    (tracked : ∃ callback, client.table.Tracks other callback) :
    Delivers other response step := by
  obtain ⟨entry, found, rfl⟩ := (filed.tracks_iff other).mp tracked
  obtain ⟨goesOn, -, -, value⟩ := answers.matched entry (number ▸ found)
  exact ⟨⟨entry.callback, goesOn⟩, value⟩

/-- A step that rejects a number has sent its request, under a number that is taken. -/
theorem taken_of_duplicate (takes : client.TakesResponses environment) {service : String}
    {sequence : Sequence}
    (rejects : (client.step environment phase).next
      = .returned (.error (.duplicateSequence service sequence))) :
    client.table.contains sequence = true
      ∧ ∃ request callback, phase = .submit request callback
        ∧ Effect.sent request sequence ∈ (client.step environment phase).effects := by
  cases isAside : phase.isAside with
  | true => cases (client.unobtrusive_step environment isAside).error _ rejects
  | false =>
    have exit := client.exit_step environment phase
    generalize client.step environment phase = step at exit rejects ⊢
    cases exit with
    | @doubled request callback number transport timed now live room sent read taken =>
      cases rejects
      exact ⟨taken, request, callback, rfl, by simp⟩
    | lost live found refused => exact absurd refused (takes.ne_error found _ _)
    | aside aside client_eq cells_eq effects next =>
      rw [aside] at isAside
      cases isAside
    | _ => cases rejects

end Client

namespace Session.Point

variable {session : Session} {point : Point}

/-- A request that was rejected in a turn: it was sent under a number under which its client had another
request pending. -/
structure Rejection (start point : Point) (turn : Turn Program) (sequence : Sequence)
    (original : Future) (later : List (Turn Program)) : Prop where
  sent : ∃ request callback, turn.phase = .submit request callback
    ∧ Effect.sent request sequence ∈ turn.effects
  number : original.sequence = sequence
  clash : ∃ earlier, start.Leads earlier ∧ earlier.Leads point
    ∧ earlier.operation? = some (turn.client, turn.phase)
    ∧ earlier.Stands turn.client original .pending
    ∧ point.turns = earlier.turns ++ later

private theorem rejection_of_duplicate (leads : (opening session).Leads point)
    (keeps : point.KeepsToClients) (fresh : session.world.IsFresh) {turn : Turn Program}
    (member : turn ∈ point.turns) {service : String} {sequence : Sequence}
    (rejected : turn.next = .returned (.error (.duplicateSequence service sequence))) :
    ∃ original later, Rejection (opening session) point turn sequence original later := by
  obtain ⟨earlier, world, before, onward, operation, made⟩ := leads.turn_made keeps member
  have kept := keeps.of_leads onward
  obtain ⟨client, found, equal, -⟩ := World.step?_eq_some made
  have filed := filed_of_leads before kept fresh found
  have takes := takesResponses_of_leads before kept fresh found
  rw [equal] at rejected
  obtain ⟨contained, request, callback, phase_eq, sent⟩ := Client.taken_of_duplicate takes rejected
  obtain ⟨entry, search⟩ := Option.isSome_iff_exists.mp contained
  obtain ⟨later, turns_eq⟩ := onward.turns_eq_append
  refine ⟨entry.future, later, ⟨request, callback, phase_eq, ?_⟩, filed.sequence_of_find? search,
    earlier, before, onward, operation, ?_, turns_eq⟩
  · rw [equal]
    exact sent
  · exact (tracks_iff_stands found entry.future).mp ⟨_, filed.tracks_of_find? search⟩

/-- A request pending under the number of a rejected one is the one that had it then, or was accepted
later. -/
private theorem Rejection.original_or_later {turn : Turn Program} {sequence : Sequence}
    {original other : Future} {later : List (Turn Program)}
    (rejection : Rejection (opening session) point turn sequence original later)
    (leads : (opening session).Leads point) (keeps : point.KeepsToClients)
    (fresh : session.world.IsFresh) (number : other.sequence = sequence)
    (pending : point.Stands turn.client other .pending) :
    other = original ∨ ∃ accepting ∈ later, ∃ callback,
      accepting.Accepts turn.client callback other := by
  obtain ⟨earlier, before, onward, -, stands, turns_eq⟩ := rejection.clash
  have kept := keeps.of_leads onward
  obtain ⟨callback, tracked⟩ := pending
  obtain ⟨accepting, made, accepts⟩ := accepted_of_tracks leads keeps fresh tracked
  rw [turns_eq] at made
  rcases List.mem_append.mp made with old | new
  · left
    by_contra different
    -- It was not pending when the number clashed, so it cannot be pending now.
    have absent : ¬ earlier.Stands turn.client other .pending := by
      rintro ⟨known, client, found, otherTracked⟩
      have filed := filed_of_leads before kept fresh found
      have originalTracked := (tracks_iff_stands found original).mpr stands
      exact different (filed.future_eq ⟨known, otherTracked⟩ originalTracked
        (number.trans rejection.number.symm))
    exact not_pending_again before fresh old accepts absent onward keeps ⟨callback, tracked⟩
  · exact Or.inr ⟨accepting, new, callback, accepts⟩

/-- Where the response to a rejected request ends up, at every point after its rejection. The request
was sent, so the response may come at any time. If no request of the client is pending under its number
then, it is reported as unmatched. If one is, that one takes it: the request that had the number when
the other was rejected, or one that was accepted since. -/
theorem rejection (fresh : session.world.IsFresh) (leads : (opening session).Leads point)
    (keeps : point.KeepsToClients) {turn : Turn Program} (member : turn ∈ point.turns)
    {service : String} {sequence : Sequence}
    (rejected : turn.next = .returned (.error (.duplicateSequence service sequence))) :
    ∃ original later, Rejection (opening session) point turn sequence original later
      ∧ ∀ client, point.machine.session.client? turn.client = some client →
        client.disposed = false → ∀ response,
          let step := client.step point.machine.session.environment (.complete sequence response)
          (client.Reports point.machine.session.environment sequence step ↔
            ∀ other : Future, other.sequence = sequence →
              ¬ point.Stands turn.client other .pending)
          ∧ ∀ other : Future, other.sequence = sequence →
            point.Stands turn.client other .pending →
              Client.Delivers other response step
                ∧ (other = original ∨ ∃ accepting ∈ later, ∃ callback,
                  accepting.Accepts turn.client callback other) := by
  obtain ⟨original, later, rejection⟩ := rejection_of_duplicate leads keeps fresh member rejected
  refine ⟨original, later, rejection, ?_⟩
  intro client found live response step
  have filed := filed_of_leads leads keeps fresh found
  have answers := answers_of_live leads keeps fresh found live sequence response
  constructor
  · rw [answers.reports_iff filed]
    exact forall_congr' fun other => imp_congr_right fun _ =>
      not_congr (tracks_iff_stands found other)
  · intro other number pending
    have tracked := (tracks_iff_stands found other).mpr pending
    exact ⟨answers.delivers filed number tracked,
      rejection.original_or_later leads keeps fresh number pending⟩

/-- A point after the number of a pending request was handed out again. -/
def clashed : Point :=
  (((opening solo).ask (.submit 0 "first" none)).next.next.next.ask
    (.forceNext 0 ⟨1⟩)).next.ask (.submit 0 "second" none) |>.next.next.next

theorem leads_clashed : (opening solo).Leads clashed :=
  .next (.next (.next (.ask _ (.next (.ask _ (.next (.next (.next (.ask _ .here rfl)))) rfl)) rfl)))

/-- There the first request takes the response to the second. -/
theorem rejection_clashed :
    ∃ client, clashed.machine.session.client? 0 = some client
      ∧ Client.Delivers ⟨0, ⟨1⟩⟩ "to the second"
        (client.step clashed.machine.session.environment (.complete ⟨1⟩ "to the second")) := by
  obtain ⟨original, later, -, delivery⟩ :=
    rejection solo_isFresh leads_clashed (by decide) (List.mem_of_getElem? (i := 1) rfl) rfl
  refine ⟨_, rfl, ((delivery _ rfl rfl "to the second").2 ⟨0, ⟨1⟩⟩ rfl ?_).1⟩
  exact ⟨none, _, rfl, _, List.mem_singleton.mpr rfl, rfl, rfl⟩

/-- So the law that the response to a rejected request is reported as unmatched fails. -/
theorem not_reports_clashed :
    ¬ ∀ client, clashed.machine.session.client? 0 = some client →
      client.Reports clashed.machine.session.environment ⟨1⟩
        (client.step clashed.machine.session.environment (.complete ⟨1⟩ "to the second")) := by
  intro law
  cases (law _ rfl).answer

end Session.Point

end Correlator
