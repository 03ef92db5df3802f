import Correlator.Proofs.Client.Performance
import Correlator.Proofs.Session.Execution
import Correlator.Proofs.Session.Turn

/-!
Contract: operations that end in a setback, at the points of a run.

Owns: that a run does to a client what the performance of its operation says, and that an operation which
answers with an error or breaks off has done nothing to any request, so that the client goes on as before.

Does not own: performances (`Correlator.Proofs.Client.Performance`).
-/

set_option autoImplicit false

namespace Correlator.Session

namespace Machine

variable {machine : Machine} {index : ClientId} {client : Client Program}

/-- What is left to be done after a step of an operation, with the rest behind it. Nothing is left
after a break. -/
def remaining (index : ClientId) (next : Next Program) (rest : List Task) : List Task :=
  match next with
  | .failed _ => []
  | .goesOn _ | .callsBack _ _ | .returned _ => following index next ++ rest

/-- A machine has made a step of a client: outside of waits, the step changes nothing else. -/
structure Stepped (machine next : Machine) (index : ClientId) (step : Step Program) : Prop where
  unhooked : next.hooks = []
  world_eq : next.session.world
    = ⟨machine.session.world.clients.set index step.client, step.environment⟩
  agenda_eq : next.agenda = remaining index step.next machine.agenda
  reply_eq : ∀ result, step.next = .returned result → next.reply = .answered result

private theorem stepped_step (machine : Machine) (unhooked : machine.hooks = [])
    (found : machine.session.client? index = some client) (phase : Phase Program) :
    machine.Stepped (machine.step index phase).2 index
        (client.step machine.session.environment phase)
      ∧ (machine.step index phase).2.session
        = { machine.session with world := (machine.step index phase).2.session.world } := by
  have made := World.step?_of_found
    (show machine.session.world.clients[index]? = some client from found) phase
  rw [show machine.session.world.environment = machine.session.environment from rfl] at made
  generalize client.step machine.session.environment phase = step at made
  unfold Machine.step
  rw [made]
  dsimp only
  cases next : step.next with
  | goesOn later | callsBack future callback | returned result =>
    dsimp only
    rw [afterSleep_of_hooks (by exact unhooked), ite_self]
    exact ⟨⟨unhooked, rfl, by simp [next, remaining, following, push, answer],
      by simp [next, answer]⟩, rfl⟩
  | failed fault =>
    dsimp only
    rw [afterSleep_of_hooks rfl, ite_self]
    exact ⟨⟨rfl, rfl, by simp [next, remaining, breakOff], by simp [next]⟩, rfl⟩

/-- A machine in which a step of an operation is next, outside of waits, makes the step. -/
private theorem runs_stepped {phase : Phase Program} {rest : List Task}
    (first : machine.agenda = .advance index phase :: rest) (unhooked : machine.hooks = [])
    (found : machine.session.client? index = some client) :
    ∃ trail finish, machine.Runs trail finish
      ∧ Stepped { machine with agenda := rest } finish index
        (client.step machine.session.environment phase)
      ∧ finish.session = { machine.session with world := finish.session.world } := by
  have stepped := stepped_step { machine with agenda := rest } unhooked found phase
  cases phase with
  | probeQuery purpose =>
    -- No wait is under way, so no program comes before the registry is asked.
    have asked : { machine with agenda := rest }.carryOut (.advance index (.probeQuery purpose))
        = ([], { machine with agenda := .step index (.probeQuery purpose) :: rest }) := by
      show ([], beforeQuery _) = _
      unfold beforeQuery
      simp only [push, unhooked]
      rfl
    exact ⟨_, _, .of_carryOut first asked (.of_carryOut rfl rfl (.here _)), stepped⟩
  | _ => exact ⟨_, _, .of_carryOut first rfl (.here _), stepped⟩

/-- A machine in which an operation is next, outside of waits, comes to the end of its performance. Of the
session, only the clients and the environment change. -/
theorem runs_performed {phase : Phase Program} {rest : List Task}
    (first : machine.agenda = .advance index phase :: rest) (unhooked : machine.hooks = [])
    (found : machine.session.client? index = some client) {environment : Environment}
    (environment_eq : machine.session.environment = environment) {ending : Step Program}
    (performs : client.Performs environment phase ending) :
    ∃ trail finish, machine.Runs trail finish
      ∧ Stepped { machine with agenda := rest } finish index ending
      ∧ finish.session = { machine.session with world := finish.session.world } := by
  induction performs generalizing machine with
  | ends last =>
    subst environment_eq
    exact runs_stepped first unhooked found
  | @goesOn client environment phase later ending next performs inductionHypothesis =>
    subst environment_eq
    obtain ⟨trail, middle, runs, stepped, alone⟩ := runs_stepped first unhooked found
    have below := (List.getElem?_eq_some_iff.mp found).1
    have middleFirst : middle.agenda = .advance index later :: rest := by
      rw [stepped.agenda_eq, next]
      rfl
    have middleFound : middle.session.client? index
        = some (client.step machine.session.environment phase).client := by
      unfold Session.client?
      rw [stepped.world_eq]
      exact List.getElem?_set_self below
    have middleEnvironment : middle.session.environment
        = (client.step machine.session.environment phase).environment :=
      congrArg World.environment stepped.world_eq
    obtain ⟨more, finish, runsOn, final, aloneOn⟩ :=
      inductionHypothesis middleFirst stepped.unhooked middleFound middleEnvironment
    refine ⟨_, finish, runs.trans runsOn,
      ⟨final.unhooked, ?_, final.agenda_eq, final.reply_eq⟩, ?_⟩
    · rw [final.world_eq]
      show World.mk (middle.session.world.clients.set index ending.client) _ = _
      rw [stepped.world_eq]
      exact congrArg (World.mk · ending.environment) (List.set_set ..)
    · rw [alone] at aloneOn
      exact aloneOn

end Machine

namespace Point

variable {session : Session} {start point : Point} {index : ClientId} {client : Client Program}
  {phase : Phase Program} {rest : List Task}

/-- A run in which an operation is next, outside of waits, comes to the end of its performance. -/
theorem Leads.performed (leads : start.Leads point)
    (first : point.machine.agenda = .advance index phase :: rest)
    (unhooked : point.machine.hooks = [])
    (found : point.machine.session.client? index = some client) {environment : Environment}
    (environment_eq : point.machine.session.environment = environment) {ending : Step Program}
    (performs : client.Performs environment phase ending) :
    ∃ finish, start.Leads finish ∧ Machine.Stepped { point.machine with agenda := rest }
      finish.machine index ending := by
  obtain ⟨trail, finish, runs, stepped, -⟩ :=
    Machine.runs_performed first unhooked found environment_eq performs
  obtain ⟨done, led⟩ := leads.runs runs
  exact ⟨_, led, stepped⟩

/-- Operations that fail are atomic. At every point of a run, every operation of a client comes to just
one end, a wait perhaps excepted. If it ends with an error or breaks off, it has done nothing to any
request: the table, the cells and the use of the client are as before, no task is woken, no callback
runs, the table is open, and only the count that belongs to the error is one higher. After a break the
client is the same and its operations come to an end as before. In a run that has the operation next,
this is what it comes to; and after a break nothing is left to be done. -/
theorem atomicity (fresh : session.world.IsFresh) (leads : (opening session).Leads point)
    (keeps : point.KeepsToClients) (found : point.machine.session.client? index = some client)
    (opening : phase.isOpening = true) :
    (phase.isWait = false →
      ∃! ending, client.Performs point.machine.session.environment phase ending)
    ∧ ∀ ending, client.Performs point.machine.session.environment phase ending →
      (∀ setback, ending.next.setback? = some setback →
        client.SetBack point.machine.session.environment ending setback)
      ∧ (∀ fault, ending.next = .failed fault →
        ending.client = client ∧ ∀ other : Phase Program, other.isOpening = true →
          other.isWait = false → ∃! after, client.Performs ending.environment other after)
      ∧ ∀ rest, point.machine.agenda = .advance index phase :: rest → point.machine.hooks = [] →
        ∃ finish, point.Leads finish ∧ Machine.Stepped { point.machine with agenda := rest }
          finish.machine index ending := by
  have takes := takesResponses_of_leads leads keeps fresh found
  have comesToEnd : ∀ (environment : Environment) (phase : Phase Program),
      phase.isOpening = true → phase.isWait = false →
        ∃! ending, client.Performs environment phase ending := by
    intro environment phase opening brief
    obtain ⟨bound, known⟩ := Phase.ahead?_of_opening opening brief
    obtain ⟨ending, performs⟩ := Client.exists_performs known
    exact ⟨ending, performs, fun other second => second.unique performs⟩
  refine ⟨comesToEnd _ phase opening, ?_⟩
  intro ending performs
  refine ⟨fun setback ends => performs.setBack takes ends, ?_, ?_⟩
  · intro fault failed
    have setBack : client.SetBack _ ending (.broke fault) :=
      performs.setBack takes (by rw [failed]; rfl)
    exact ⟨setBack.client_eq, fun other => comesToEnd ending.environment other⟩
  · intro rest first unhooked
    exact Leads.here.performed first unhooked found rfl performs

/-- A point before a request is sent, with another one pending and the clock out of range. -/
def timeless : Point :=
  (((opening solo).ask (.submit 0 "first" none)).next.next.next.ask
    (.advance 0 .longest)).next.ask (.submit 0 "second" none) |>.next

theorem leads_timeless : (opening solo).Leads timeless :=
  .next (.ask _ (.next (.ask _ (.next (.next (.next (.ask _ .here rfl)))) rfl)) rfl)

/-- There the second request is sent and then breaks off; the first one stays pending. -/
theorem atomicity_timeless :
    ∃ client ending finish, timeless.machine.session.client? 0 = some client
      ∧ client.table.sequences = [⟨1⟩]
      ∧ ending.next = .failed .clockOutOfRange
      ∧ client.SetBack timeless.machine.session.environment ending (.broke .clockOutOfRange)
      ∧ timeless.Leads finish ∧ finish.machine.agenda = []
      ∧ finish.machine.session.client? 0 = some client := by
  obtain ⟨client, found⟩ : ∃ client, timeless.machine.session.client? 0 = some client := ⟨_, rfl⟩
  have fails : client.table.sequences = [⟨1⟩]
      ∧ (client.step timeless.machine.session.environment (.submit "second" none)).next
        = .failed .clockOutOfRange := by
    cases found
    exact ⟨rfl, rfl⟩
  have performs : client.Performs timeless.machine.session.environment (.submit "second" none) _ :=
    .ends (by rw [fails.2]; rfl)
  obtain ⟨setBack, same, run⟩ :=
    (atomicity solo_isFresh leads_timeless (by decide) found rfl).2 _ performs
  obtain ⟨finish, led, stepped⟩ := run _ rfl rfl
  refine ⟨client, _, finish, found, fails.1, fails.2, setBack _ (by rw [fails.2]; rfl), led, ?_, ?_⟩
  · rw [stepped.agenda_eq, fails.2]
    rfl
  · unfold Session.client?
    rw [stepped.world_eq, (same _ fails.2).1]
    cases found
    rfl

end Point

end Correlator.Session
