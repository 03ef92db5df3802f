import Correlator.Proofs.Session.Outcome

/-!
Contract: how a machine makes a turn of a client.

Owns: what a turn leaves to be done, whether a wait's program runs after it, and that it changes no more of a
session than its clients and environment.

Does not own: which tasks make turns and which do not (`Correlator.Proofs.Session.Outcome`).
-/

set_option autoImplicit false

namespace Correlator

theorem World.step?_of_found {κ : Type} {world : World κ} {index : ClientId} {client : Client κ}
    (found : world.clients[index]? = some client) (phase : Phase κ) :
    world.step? index phase
      = some (⟨index, client.service, phase, (client.step world.environment phase).effects,
          (client.step world.environment phase).next⟩,
        ⟨world.clients.set index (client.step world.environment phase).client,
          (client.step world.environment phase).environment⟩) := by
  unfold step?
  rw [found]
  rfl

namespace Session.Machine

theorem afterSleep_of_hooks {machine : Machine} (none : machine.hooks = []) :
    machine.afterSleep = machine := by
  unfold Machine.afterSleep
  rw [none]

/-- Goes on as a turn asks for. -/
def resume (machine : Machine) (index : ClientId) : Next Program → Machine
  | .goesOn phase => machine.push [.advance index phase]
  | .callsBack future callback =>
    machine.push [.callBack future callback, .reply (.answered (.ok .done))]
  | .returned result => machine.answer (.answered result)
  | .failed fault => machine.breakOff fault

/-- Goes on after a turn, which left the clients as they are now. -/
def proceed (machine : Machine) (world : World Program) (turn : Turn Program) : Machine :=
  let machine := { machine with session := { machine.session with world } }
  let sleptOnVirtual := turn.effects.any fun effect =>
    match effect with
    | .slept (.virtual _) _ => true
    | _ => false
  let machine := machine.resume turn.client turn.next
  if sleptOnVirtual then machine.afterSleep else machine

theorem step_eq {machine : Machine} {index : ClientId} {phase : Phase Program}
    {turn : Turn Program} {world : World Program}
    (made : machine.session.world.step? index phase = some (turn, world)) :
    machine.step index phase = ([.turn turn], machine.proceed world turn) := by
  obtain ⟨client, -, rfl, -⟩ := World.step?_eq_some made
  unfold step
  rw [made]
  rfl

/-- After a turn without a sleep there is nothing to do but what the turn asks for. -/
theorem proceed_of_awake (machine : Machine) (world : World Program) {turn : Turn Program}
    (awake : ∀ clock nap, Effect.slept clock nap ∉ turn.effects) :
    machine.proceed world turn
      = { machine with session := { machine.session with world } }.resume turn.client turn.next := by
  unfold proceed
  dsimp only
  refine if_neg ?_
  rw [List.any_eq_true]
  rintro ⟨effect, member, matched⟩
  split at matched
  next nap => exact awake _ _ member
  next => cases matched

/-- A turn changes no more of a session than its clients and environment. -/
theorem proceed_session (machine : Machine) (world : World Program) (turn : Turn Program) :
    (machine.proceed world turn).session = { machine.session with world } := by
  have resumed : ∀ next : Machine, (next.resume turn.client turn.next).session = next.session := by
    intro next
    cases turn.next <;> rfl
  have woken : ∀ next : Machine, next.afterSleep.session = next.session := by
    intro next
    unfold afterSleep
    split <;> rfl
  unfold proceed
  dsimp only
  split
  · rw [woken, resumed]
  · rw [resumed]

/-- A step that returns its answer changes the clients and the environment of a session, and brings the answer as
the reply. -/
theorem step_of_returned {machine : Machine} {index : ClientId} {client : Client Program}
    (found : machine.session.client? index = some client) {phase : Phase Program}
    (concerned : phase.isAside = false) {answer : Answer}
    (returned : (client.step machine.session.environment phase).next = .returned (.ok answer)) :
    ∃ turn, machine.step index phase = ([.turn turn],
      { machine with
        session := { machine.session with
          world := ⟨machine.session.world.clients.set index
            (client.step machine.session.environment phase).client,
            (client.step machine.session.environment phase).environment⟩ }
        reply := .answered (.ok answer) }) := by
  have made := World.step?_of_found
    (show machine.session.world.clients[index]? = some client from found) phase
  have exit := client.exit_step machine.session.environment phase
  have awake : ∀ clock nap,
      Effect.slept clock nap ∉ (client.step machine.session.environment phase).effects := by
    intro clock nap slept
    generalize client.step machine.session.environment phase = step at exit slept
    cases exit with
    | aside isAside =>
      rw [concerned] at isAside
      cases isAside
    | _ => simp at slept
  refine ⟨_, (step_eq made).trans (congrArg (Prod.mk _) ?_)⟩
  rw [proceed_of_awake machine _ awake]
  dsimp only
  rw [show (client.step machine.session.world.environment phase).next = .returned (.ok answer)
    from returned]
  rfl

theorem carryOut_of_operation (machine : Machine) {task : Task} {index : ClientId}
    {phase : Phase Program} (operation : task.operation? = some (index, phase))
    (steady : ∀ purpose, phase ≠ .probeQuery purpose) :
    machine.carryOut task = machine.step index phase := by
  cases task with
  | advance client begun =>
    obtain ⟨rfl, rfl⟩ : client = index ∧ begun = phase := by simpa [Task.operation?] using operation
    cases begun with
    | probeQuery purpose => exact absurd rfl (steady purpose)
    | _ => rfl
  | step client begun =>
    cases operation
    rfl
  | _ => cases operation

end Session.Machine

end Correlator
