import Correlator.Proofs.Course.Disposal
import Correlator.Proofs.Session.Direct
import Correlator.Proofs.Session.Run

/-!
Contract: what any task of a session does to its clients, also one that completes a request past them.

Owns: that clients change in their turns only, that no operation is under way but those that began or went
on, and that every turn was made at an earlier point.

Does not own: what a task does to what clients share (`Correlator.Proofs.Session.Outcome`).
-/

set_option autoImplicit false

namespace Correlator.Session

namespace Machine

/-- What a task may do, which was taken from an agenda of which the rest is left. -/
inductive Progress (machine : Machine) (task : Task) (result : Result) : Prop where
  | still (silent : Trail.turns result.1 = [])
      (clients_eq : result.2.session.world.clients = machine.session.world.clients)
      (underway : ∀ operation ∈ Session.underway result.2.agenda,
        operation.2.isOpening = true ∨ operation ∈ Session.underway machine.agenda
          ∨ task.operation? = some operation)
  | turned (turn : Turn Program) (world : World Program)
      (operation : task.operation? = some (turn.client, turn.phase))
      (made : machine.session.world.step? turn.client turn.phase = some (turn, world))
      (turns_eq : Trail.turns result.1 = [turn])
      (clients_eq : result.2.session.world.clients = world.clients)
      (underway : ∀ operation ∈ Session.underway result.2.agenda,
        operation.2.isOpening = true ∨ operation ∈ Session.underway machine.agenda
          ∨ (operation.1 = turn.client ∧ turn.next = .goesOn operation.2))

/-- The operations under way after fresh tasks were put before others. -/
private theorem underway_fresh {fresh rest : List Task} {operation : ClientId × Phase Program}
    (areFresh : ∀ task ∈ fresh, task.isFresh = true)
    (member : operation ∈ Session.underway (fresh ++ rest)) :
    operation.2.isOpening = true ∨ operation ∈ Session.underway rest := by
  obtain ⟨task, among, found⟩ := List.mem_filterMap.mp member
  rcases List.mem_append.mp among with new | old
  · have isFresh := areFresh task new
    cases task with
    | advance client phase | step client phase =>
      cases found
      exact .inl isFresh
    | _ => cases found
  · exact .inr (List.mem_filterMap.mpr ⟨task, old, found⟩)

private theorem of_mem_following {client : ClientId} {next : Next Program}
    {operation : ClientId × Phase Program} (member : operation ∈ Session.underway (following client next)) :
    operation.1 = client ∧ next = .goesOn operation.2 := by
  cases next with
  | goesOn phase =>
    cases List.mem_singleton.mp member
    exact ⟨rfl, rfl⟩
  | callsBack | returned | failed => cases member

private theorem Outcome.progress {machine : Machine} {task : Task} {result : Result}
    (outcome : Outcome machine task result) : Progress machine task result := by
  cases outcome with
  | begins idle uncalled silent begins =>
    obtain ⟨fresh, agenda_eq, areFresh⟩ := begins.agenda_eq
    refine .still silent (congrArg World.clients begins.world_eq) fun operation member => ?_
    exact (underway_fresh areFresh (agenda_eq ▸ member)).imp_right .inl
  | acts act idle uncalled world_eq agenda_eq =>
    have clients_eq := congrArg World.clients world_eq
    exact .still rfl clients_eq fun operation member => .inr (.inl (agenda_eq ▸ member))
  | drops operation unknown world_eq agenda_eq =>
    have clients_eq := congrArg World.clients world_eq
    exact .still rfl clients_eq fun operation member => .inr (.inl (agenda_eq ▸ member))
  | breaksOff idle uncalled world_eq agenda_eq =>
    refine .still rfl (congrArg World.clients world_eq) fun operation member => ?_
    rw [agenda_eq] at member
    cases member
  | calls silent world_eq agenda_eq =>
    refine .still silent (congrArg World.clients world_eq) fun operation member => ?_
    exact (underway_fresh (fun task member => (isFresh_of_mem_tasks member).1)
      (agenda_eq ▸ member)).imp_right .inl
  | defers fresh world_eq agenda_eq areFresh =>
    refine .still rfl (congrArg World.clients world_eq) fun operation member => ?_
    rcases underway_fresh (fun task member => (areFresh task member).1) (agenda_eq ▸ member) with
      opening | old
    · exact .inl opening
    · rw [Point.underway_cons] at old
      rcases List.mem_append.mp old with own | rest
      · exact .inr (.inr (Option.mem_toList.mp own))
      · exact .inr (.inl rest)
  | fails operation made failed world_eq agenda_eq =>
    obtain ⟨client, found, rfl, rfl⟩ := World.step?_eq_some made
    refine .turned _ _ operation made rfl (congrArg World.clients world_eq) fun operation member => ?_
    rw [agenda_eq] at member
    cases member
  | @turns _ _ _ turn _ _ fresh operation made world_eq agenda_eq areFresh asleep =>
    obtain ⟨client, found, turn_eq, rfl⟩ := World.step?_eq_some made
    cases turn_eq
    refine .turned _ _ operation made rfl (congrArg World.clients world_eq) fun operation member => ?_
    rcases underway_fresh (fun task member => (areFresh task member).1) (agenda_eq ▸ member) with
      opening | old
    · exact .inl opening
    · unfold Session.underway at old
      rw [List.filterMap_append, List.mem_append] at old
      rcases old with later | rest
      · exact .inr (.inr (of_mem_following later))
      · exact .inr (.inl rest)

/-- A completion past all clients leaves them alone, and begins no operation. -/
private theorem Direct.progress {machine : Machine} {task : Task} {result : Result}
    (direct : Direct machine task result) : Progress machine task result := by
  obtain ⟨cells, world_eq⟩ := direct.world_eq
  obtain ⟨fresh, agenda_eq, idle⟩ := direct.agenda_eq
  have clients_eq := congrArg World.clients world_eq
  refine .still direct.silent clients_eq fun operation member => .inr (.inl ?_)
  obtain ⟨later, among, found⟩ := List.mem_filterMap.mp member
  rcases List.mem_append.mp (agenda_eq ▸ among) with new | old
  · rw [idle later new] at found
    cases found
  · exact List.mem_filterMap.mpr ⟨later, old, found⟩

/-- Every task does one of the two. -/
theorem progress_carryOut (machine : Machine) (task : Task) :
    Progress machine task (machine.carryOut task) := by
  cases keeps : task.isDirect with
  | false => exact (machine.outcome_carryOut keeps).progress
  | true => exact (machine.direct_carryOut keeps).progress

end Machine

namespace Point

variable {session : Session} {point : Point} {index : ClientId} {client : Client Program}

/-- Every turn was made at an earlier point, whatever was done past the clients. -/
theorem Leads.stepped (leads : (opening session).Leads point) {turn : Turn Program}
    (member : turn ∈ point.turns) :
    ∃ earlier world, (opening session).Leads earlier ∧ earlier.Leads point
      ∧ earlier.operation? = some (turn.client, turn.phase)
      ∧ earlier.machine.session.world.step? turn.client turn.phase = some (turn, world) := by
  induction leads with
  | here => cases member
  | ask op leads idle inductionHypothesis =>
    obtain ⟨earlier, world, before, later, operation, made⟩ := inductionHypothesis member
    exact ⟨earlier, world, before, later.ask op idle, operation, made⟩
  | @work point task agenda leads first inductionHypothesis =>
    have progress := Machine.progress_carryOut { point.machine with agenda } task
    unfold Point.work at member
    rw [turns_after] at member
    rcases List.mem_append.mp member with old | new
    · obtain ⟨earlier, world, before, later, operation, made⟩ := inductionHypothesis old
      exact ⟨earlier, world, before, later.work task agenda first, operation, made⟩
    · cases progress with
      | still silent =>
        rw [silent] at new
        cases new
      | turned only world operation made turns_eq =>
        rw [turns_eq] at new
        rw [List.mem_singleton.mp new]
        refine ⟨point, world, leads, .work task agenda .here first, ?_, made⟩
        rw [Point.operation?, first]
        exact operation

/-- What is true of a client and the turns of a run, if the client's own turns keep it true whatever the
environment, and turns of other clients leave it true of the same client. -/
theorem Leads.client_induction {motive : List (Turn Program) → Client Program → Prop}
    (leads : (opening session).Leads point)
    (found : point.machine.session.client? index = some client)
    (initial : ∀ first, session.client? index = some first → motive [] first)
    (own : ∀ before (actor : Client Program) environment phase, motive before actor →
      motive (before ++ [actor.turn environment index phase]) (actor.step environment phase).client)
    (others : ∀ before actor (turn : Turn Program), turn.client ≠ index → motive before actor →
      motive (before ++ [turn]) actor) :
    motive point.turns client := by
  induction leads generalizing client with
  | here => exact initial client found
  | ask op leads idle inductionHypothesis => exact inductionHypothesis found
  | @work point task agenda leads first inductionHypothesis =>
    have progress := Machine.progress_carryOut { point.machine with agenda } task
    unfold Point.work at found ⊢
    rw [turns_after]
    cases progress with
    | still silent clients_eq =>
      rw [silent, List.append_nil]
      exact inductionHypothesis ((congrArg (·[index]?) clients_eq).symm.trans found)
    | turned turn world operation made turns_eq clients_eq =>
      rw [turns_eq]
      obtain ⟨actor, foundActor, turn_eq, rfl⟩ := World.step?_eq_some made
      have found := (congrArg (·[index]?) clients_eq).symm.trans found
      rcases (World.getElem?_set_client foundActor).mp found with ⟨rfl, rfl⟩ | ⟨different, old⟩
      · rw [turn_eq]
        exact own point.turns actor _ turn.phase (inductionHypothesis foundActor)
      · exact others point.turns client turn (Ne.symm different) (inductionHypothesis old)

/-- A step of a client is under way, or was made. -/
def Reaches (point : Point) (index : ClientId) (phase : Phase Program) : Prop :=
  (index, phase) ∈ underway point.machine.agenda
    ∨ ∃ turn ∈ point.turns, turn.client = index ∧ turn.phase = phase

/-- What comes into reach with a task is the beginning of an operation, or what its turn goes on with. -/
theorem reaches_of_work {task : Task} {agenda : List Task} {phase : Phase Program}
    (first : point.machine.agenda = task :: agenda)
    (reaches : (point.work task agenda).Reaches index phase) (later : phase.isOpening = false) :
    point.Reaches index phase
      ∨ ∃ turn world, task.operation? = some (turn.client, turn.phase)
        ∧ point.machine.session.world.step? turn.client turn.phase = some (turn, world)
        ∧ (point.work task agenda).machine.session.world.clients = world.clients
        ∧ turn.client = index ∧ turn.next = .goesOn phase := by
  have progress := Machine.progress_carryOut { point.machine with agenda } task
  have split : Session.underway point.machine.agenda
      = task.operation?.toList ++ Session.underway agenda := by rw [first, underway_cons]
  have old : ∀ operation ∈ Session.underway agenda, operation ∈ underway point.machine.agenda := by
    intro operation member
    exact split ▸ List.mem_append_right _ member
  have own : ∀ operation, task.operation? = some operation →
      operation ∈ underway point.machine.agenda := by
    intro operation same
    exact split ▸ List.mem_append_left _ (Option.mem_toList.mpr same)
  unfold Reaches Point.work at reaches
  rw [turns_after] at reaches
  cases progress with
  | still silent clients_eq underway =>
    rw [silent, List.append_nil] at reaches
    refine .inl (reaches.imp_left fun member => ?_)
    rcases underway _ member with opening | before | same
    · rw [later] at opening
      cases opening
    · exact old _ before
    · exact own _ same
  | turned turn world operation made turns_eq clients_eq underway =>
    rw [turns_eq] at reaches
    rcases reaches with member | ⟨known, member, acted, same⟩
    · rcases underway _ member with opening | before | ⟨acted, goesOn⟩
      · rw [later] at opening
        cases opening
      · exact .inl (.inl (old _ before))
      · exact .inr ⟨turn, world, operation, made, clients_eq, acted.symm, goesOn⟩
    · rcases List.mem_append.mp member with before | last
      · exact .inl (.inr ⟨known, before, acted, same⟩)
      · rw [List.mem_singleton.mp last] at acted same
        exact .inl (.inl (acted ▸ same ▸ own _ operation))

end Point

end Correlator.Session
