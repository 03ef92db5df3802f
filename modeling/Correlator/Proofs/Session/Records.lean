import Correlator.Proofs.Session.Parallel
import Correlator.Proofs.Session.Spawning

/-!
Contract: the futures that the user of a session has.

Owns: that the user has the future of every accepted request with a callback, whoever submitted it, once
its submission is finished.

Does not own: what the user does with them (`Correlator.Proofs.Session.Twins`).
-/

set_option autoImplicit false

namespace Correlator

namespace Session

namespace Point

variable {session : Session} {point : Point} {index : ClientId} {program : Program}
  {future : Future}

/-- The user is about to get a future. -/
def Awaits (point : Point) (future : Future) : Prop :=
  point.machine.agenda.head? = some (.finish .submission)
    ∧ point.machine.reply = .answered (.ok (.submitted future))

/-- Every request with a callback will be recorded right after its submission. -/
private theorem Leads.heralded (leads : (opening session).Leads point) :
    Task.heralded point.machine.agenda = true := by
  induction leads with
  | here | ask => rfl
  | @work point task agenda leads first inductionHypothesis =>
    rw [first] at inductionHypothesis
    have rest : Task.heralded { point.machine with agenda }.agenda = true :=
      (Bool.and_eq_true_iff.mp inductionHypothesis).2
    rcases Machine.adds_carryOut { point.machine with agenda } task with gone | ⟨fresh, equal, spawns⟩
    · rw [Point.work, Point.after, gone]
      rfl
    · rw [Point.work, Point.after, equal]
      exact Task.heralded_append spawns.heralded rest

/-- The user keeps the futures that he has. -/
private theorem Leads.futures_kept (leads : (opening session).Leads point) {task : Task}
    {agenda : List Task} (first : point.machine.agenda = task :: agenda) :
    point.machine.session.futures <+: (point.work task agenda).machine.session.futures := by
  rcases leads.alike_self with alike | broken
  · have knowing : Machine.Alike Machine.unmuted point.machine.session.futures [] point.machine
        point.machine :=
      ⟨⟨alike.session, alike.hooks, alike.agenda, List.prefix_rfl, alike.waits, alike.unbroken,
        alike.whole⟩, alike.reply⟩
    rcases (knowing.carryOut first (Machine.heeds_unmuted _ _)).machines with after | broken
    · exact after.known
    · exact broken.known
  · rw [broken.agenda] at first
    cases first

/-- The future of a request that was just accepted is recorded next. -/
private theorem awaits_of_accepts {task : Task} {agenda : List Task}
    (heralded : Task.heralded (task :: agenda) = true) {turn : Turn Program}
    {world : World Program} (operation : task.operation? = some (turn.client, turn.phase))
    (made : point.machine.session.world.step? turn.client turn.phase = some (turn, world))
    (accepts : turn.Accepts index (some program) future) :
    (point.work task agenda).Awaits future := by
  obtain ⟨rfl, accepted, request, phase⟩ := accepts
  have awake : ∀ clock nap, Effect.slept clock nap ∉ turn.effects := by
    obtain ⟨known, -, same, -⟩ := World.step?_eq_some made
    intro clock nap slept
    rw [same] at slept accepted
    have aside := Machine.isAside_of_slept
      (known.exit_step point.machine.session.world.environment turn.phase) slept
    rw [show (known.step point.machine.session.world.environment turn.phase).next
      = .returned (.ok (.submitted future)) from accepted] at aside
    cases aside
  have steady : ∀ purpose, turn.phase ≠ .probeQuery purpose := by
    rw [phase]
    simp
  rw [work_eq operation steady made]
  have stands := Machine.proceed_of_awake { point.machine with agenda } world awake
  rw [accepted] at stands
  have entrusts : task.entrusts = true := by
    unfold Task.entrusts
    rw [operation, phase]
  refine ⟨?_, ?_⟩
  · show (Machine.proceed { point.machine with agenda } world turn).agenda.head? = _
    rw [stands]
    exact Task.head?_of_heralded entrusts heralded
  · show (Machine.proceed { point.machine with agenda } world turn).reply = _
    rw [stands]
    rfl

/-- The user has the future of every request with a callback that was accepted, or is about to get it. -/
theorem recorded_of_accepts (leads : (opening session).Leads point) (keeps : point.KeepsToClients)
    {turn : Turn Program} (member : turn ∈ point.turns)
    (accepts : turn.Accepts index (some program) future) :
    future ∈ point.machine.session.futures ∨ point.Awaits future := by
  induction leads with
  | here => cases member
  | ask op leads idle inductionHypothesis =>
    rcases inductionHypothesis keeps member with known | ⟨next, -⟩
    · exact .inl known
    · rw [idle] at next
      cases next
  | @work point task agenda leads first inductionHypothesis =>
    obtain ⟨kept, keepsNow⟩ := keeps.of_work
    have outcome := Machine.outcome_carryOut { point.machine with agenda } keepsNow
    have grown := leads.futures_kept first
    unfold Point.work at member
    rw [turns_after] at member
    rcases List.mem_append.mp member with old | new
    · left
      rcases inductionHypothesis kept old with known | ⟨next, reply⟩
      · exact grown.subset known
      · rw [first] at next
        obtain rfl : task = .finish .submission := by simpa using next
        show future ∈ (Machine.finish { point.machine with agenda } .submission).session.futures
        unfold Machine.finish
        dsimp only
        rw [reply]
        exact List.mem_append_right _ (List.mem_singleton.mpr rfl)
    · right
      rcases outcome.turns_eq with none | ⟨only, world, one, operation, made⟩
      · rw [none] at new
        cases new
      · rw [one] at new
        obtain rfl := List.mem_singleton.mp new
        have heralded := leads.heralded
        rw [first] at heralded
        exact awaits_of_accepts heralded operation made accepts

end Point

end Session

end Correlator
