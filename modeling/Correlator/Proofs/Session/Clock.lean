import Correlator.Proofs.Course.Capacity
import Correlator.Proofs.Course.Clock
import Correlator.Proofs.Session.Progress

/-!
Contract: clocks along the runs of a session, whatever is done past its clients.

Owns: that no task puts a clock back, and that what a client has pending is as old as the run up to it allows.

Does not own: clocks along courses (`Correlator.Proofs.Course.Clock`).
-/

set_option autoImplicit false

namespace Correlator.Session

/-- No task puts a clock back. -/
theorem Machine.precedes_carryOut (machine : Machine) (task : Task) :
    machine.session.environment.Precedes (machine.carryOut task).2.session.environment := by
  have alters := machine.alters_carryOut task
  generalize (machine.carryOut task).2 = next at alters ⊢
  unfold Session.environment
  cases alters with
  | stores cells world_eq =>
    rw [world_eq]
    exact .of_eq rfl rfl
  | acts act world_eq =>
    rw [world_eq]
    exact act.precedes_apply _
  | steps client phase turn made =>
    obtain ⟨actor, -, -, world_eq⟩ := World.step?_eq_some made
    rw [world_eq]
    exact actor.precedes_step _ _

namespace Point

variable {start point : Point} {index : ClientId} {client : Client Program}

/-- No clock is ever put back. -/
theorem Leads.precedes (leads : start.Leads point) :
    start.machine.session.environment.Precedes point.machine.session.environment := by
  induction leads with
  | here => exact .refl _
  | ask op leads idle inductionHypothesis => exact inductionHypothesis
  | @work point task agenda leads first inductionHypothesis =>
    exact inductionHypothesis.trans (Machine.precedes_carryOut { point.machine with agenda } task)

/-- A client keeps its options and its clock, and what it has pending it had pending before, or it was
submitted since. -/
theorem Leads.stamped (leads : start.Leads point)
    (found : point.machine.session.client? index = some client) :
    ∃ earlier, start.machine.session.client? index = some earlier
      ∧ client.options = earlier.options ∧ client.clock = earlier.clock
      ∧ ∀ row ∈ client.table.rows, row ∈ earlier.table.rows
        ∨ ((start.machine.session.environment.elapsed earlier.clock).toNanos : Int)
          ≤ row.2.submittedAt.toNanos := by
  induction leads generalizing client with
  | here => exact ⟨client, found, rfl, rfl, fun _ member => .inl member⟩
  | ask op leads idle inductionHypothesis => exact inductionHypothesis found
  | @work point task agenda leads first inductionHypothesis =>
    have progress := Machine.progress_carryOut { point.machine with agenda } task
    unfold Point.work at found
    cases progress with
    | still silent clients_eq =>
      exact inductionHypothesis ((congrArg (·[index]?) clients_eq).symm.trans found)
    | turned turn world operation made turns_eq clients_eq =>
      obtain ⟨actor, foundActor, -, rfl⟩ := World.step?_eq_some made
      have found := (congrArg (·[index]?) clients_eq).symm.trans found
      rcases (World.getElem?_set_client foundActor).mp found with ⟨rfl, rfl⟩ | ⟨different, old⟩
      · obtain ⟨earlier, foundEarlier, options_eq, clock_eq, stamped⟩ :=
          inductionHypothesis foundActor
        have exit := actor.exit_step point.machine.session.environment turn.phase
        refine ⟨earlier, foundEarlier, exit.options_eq.trans options_eq,
          exit.clock_eq.trans clock_eq, fun row member => ?_⟩
        rcases exit.stamped member with old | new
        · exact stamped row old
        · have passed := leads.precedes.trans (actor.precedes_step _ turn.phase) earlier.clock
          rw [clock_eq] at new
          right
          omega
      · exact inductionHypothesis old

end Point

end Correlator.Session
