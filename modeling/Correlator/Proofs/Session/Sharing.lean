import Correlator.Proofs.Concourse.Cell
import Correlator.Proofs.Session.Direct
import Correlator.Proofs.Session.Run

/-!
Contract: the runs of a session as concourses, completions past the clients included.

Owns: that every point of a run has the clients, the cells, the turns and the wake-ups of a concourse.

Does not own: what holds in a concourse (`Correlator.Proofs.Concourse.Wakeup`,
`Correlator.Proofs.Concourse.Assignment`), and the courses of runs that keep to the clients
(`Correlator.Proofs.Session.Run`).
-/

set_option autoImplicit false

namespace Correlator

namespace Cells

variable {cells : Cells} {future : Future}

/-- A poll of a future without a cell leaves no trace. -/
theorem poll_of_unknown (unknown : ¬ future.cell < cells.length) (waker : Waker) :
    (cells.poll future waker).2 = cells :=
  List.set_eq_of_length_le (Nat.not_lt.mp unknown)

/-- Neither does a response to one, and it wakes no task. -/
theorem resolve_of_unknown (unknown : ¬ future.cell < cells.length) {value : Response}
    {wakers : List Waker} {after : Cells} (fills : cells.resolve future value = .ok (wakers, after)) :
    wakers = [] ∧ after = cells := by
  unfold resolve cell at fills
  rw [List.getElem?_eq_none (Nat.not_lt.mp unknown)] at fills
  cases fills
  exact ⟨rfl, List.set_eq_of_length_le (Nat.not_lt.mp unknown)⟩

end Cells

namespace Concourse

variable {κ : Type}

/-- The turns that clients made. -/
def turns (concourse : Concourse κ) : List (Turn κ) :=
  concourse.deeds.filterMap fun deed =>
    match deed with
    | .turned turn => some turn
    | _ => none

/-- The tasks that were woken. -/
def woken (concourse : Concourse κ) : List Waker := concourse.deeds.flatMap Deed.woken

theorem leads_enter (concourse : Concourse κ) (entered : List (ClientId × Phase κ))
    (opening : ∀ operation ∈ entered, operation.2.isOpening = true) :
    concourse.Leads { concourse with underway := entered ++ concourse.underway } := by
  induction entered with
  | nil => exact .here
  | cons operation rest inductionHypothesis =>
    refine .move (inductionHypothesis fun later member =>
      opening later (List.mem_cons_of_mem _ member)) ?_
    exact .enter operation.1 operation.2 (opening operation List.mem_cons_self)

theorem leads_abandon (concourse : Concourse κ) :
    concourse.Leads { concourse with underway := [] } := by
  generalize left : concourse.underway = underway
  induction underway generalizing concourse with
  | nil =>
    rw [← left]
    exact .here
  | cons operation rest inductionHypothesis =>
    have first : Move concourse { concourse with underway := rest } :=
      .abandon [] rest operation.1 operation.2 left
    exact (Leads.move .here first).trans (inductionHypothesis _ rfl)

end Concourse

namespace Session

/-! ### What tasks wake -/

/-- The tasks that were woken. -/
def Occurrence.woken : Occurrence → List Waker
  | .turn made => made.woken
  | .woke waker => [waker]
  | _ => []

def Trail.woken (trail : Trail) : List Waker := trail.flatMap Occurrence.woken

namespace Machine

section Quiet

variable (machine : Machine)

private theorem woken_call (client : ClientId) (phase : Phase Program) (finish : Option Finish) :
    Trail.woken (machine.call client phase finish).1 = [] := by
  unfold call
  split <;> rfl

private theorem woken_changeTransport (transport : TransportId)
    (change : Transport.Loopback → Transport.Loopback) :
    Trail.woken (machine.changeTransport transport change).1 = [] := by
  unfold changeTransport
  dsimp only
  split <;> rfl

/-- An operation that begins wakes no task, but if it completes a request past the clients. -/
theorem woken_perform (own : Option Future) (op : Op)
    (keeps : (Task.perform op own).isDirect = false) :
    Trail.woken (machine.perform own op).1 = [] := by
  let quiet : Result → Prop := fun result => Trail.woken result.1 = []
  have replies : ∀ reply, quiet ([], machine.answer reply) := fun _ => rfl
  have found : ∀ (reference : FutureRef) {body : Future → Result}, (∀ future, quiet (body future)) →
      quiet (machine.withFuture own reference body) :=
    fun reference _ => machine.withFuture_cases own replies reference
  cases op with
  | resolveDirect => cases keeps
  | submit | pruneAll | pruneOlder | pruneStale | isAvailable | dispose =>
    exact machine.woken_call _ _ _
  | complete client target response =>
    exact machine.withTarget_cases own (motive := quiet) replies target fun sequence =>
      machine.woken_call _ _ _
  | isPending client target =>
    exact machine.withTarget_cases own (motive := quiet) replies target fun sequence => rfl
  | cancel => exact found _ fun future => machine.woken_call _ _ _
  | future | cloneFuture | get | poll => exact found _ fun future => rfl
  | same => exact found _ fun left => found _ fun right => rfl
  | failNext | forceNext => exact machine.woken_changeTransport _ _
  | getWithin future timeout =>
    exact found _ fun future =>
      machine.patiently_cases (motive := quiet) replies _ timeout _ fun _ => rfl
  | readers client future readers response =>
    refine found _ fun future => ?_
    split
    · rfl
    · split
      · rfl
      · exact machine.woken_call _ _ _
  | race =>
    refine found _ fun future => ?_
    split <;> rfl
  | now =>
    unfold perform
    exact machine.viewTime_cases (motive := quiet) replies _ _ fun fault => rfl
  | _ =>
    -- The others look up one thing at most before they reply.
    unfold perform
    dsimp only
    first | rfl | (split <;> rfl)

/-- Tasks are woken in turns of clients, but for completions past them. -/
theorem woken_carryOut (task : Task) (keeps : task.isDirect = false) :
    Trail.woken (machine.carryOut task).1
      = (Trail.turns (machine.carryOut task).1).flatMap Turn.woken := by
  have stepped : ∀ (client : ClientId) (phase : Phase Program),
      Trail.woken (machine.step client phase).1
        = (Trail.turns (machine.step client phase).1).flatMap Turn.woken := by
    intro client phase
    unfold step
    split <;> rfl
  cases task with
  | perform op own =>
    rcases (machine.outcome_carryOut keeps).turns_eq with silent | ⟨turn, world, -, operation, -⟩
    · rw [silent]
      exact machine.woken_perform own op keeps
    · cases operation
  | advance client phase =>
    cases phase with
    | probeQuery purpose => rfl
    | _ => exact stepped client _
  | step client phase => exact stepped client phase
  | _ => rfl

end Quiet

/-! ### One task -/

/-- A concourse does what a task did that left a result. -/
structure Answers (concourse next : Concourse Program) (result : Result) : Prop where
  leads : concourse.Leads next
  world : next.world = result.2.session.world
  underway : next.underway = Session.underway result.2.agenda
  turns : next.turns = concourse.turns ++ Trail.turns result.1
  woken : next.woken = concourse.woken ++ Trail.woken result.1

variable {machine : Machine} {concourse : Concourse Program} {task : Task} {result : Result}

namespace Answers

/-- A concourse in which no client makes a turn, and no task is woken. -/
private theorem silently {next : Concourse Program} (leads : concourse.Leads next)
    (world : next.world = result.2.session.world)
    (underway : next.underway = Session.underway result.2.agenda)
    (turns : next.turns = concourse.turns) (woken : next.woken = concourse.woken)
    (silent : Trail.turns result.1 = []) (quiet : Trail.woken result.1 = []) :
    Answers concourse next result := by
  refine ⟨leads, world, underway, ?_, ?_⟩
  · rw [turns, silent, List.append_nil]
  · rw [woken, quiet, List.append_nil]

/-- A concourse in which a client makes a turn. -/
private theorem turned {next : Concourse Program} {turn : Turn Program} (leads : concourse.Leads next)
    (world : next.world = result.2.session.world)
    (underway : next.underway = Session.underway result.2.agenda)
    (deeds : next.deeds = concourse.deeds ++ [.turned turn]) (only : result.1 = [.turn turn]) :
    Answers concourse next result := by
  refine ⟨leads, world, underway, ?_, ?_⟩
  · unfold Concourse.turns
    rw [deeds, only, List.filterMap_append]
    rfl
  · unfold Concourse.woken Trail.woken
    rw [deeds, only, List.flatMap_append]
    rfl

end Answers

/-- What code outside of the clients does to what they share is one move at most. -/
private theorem answers_of_act (act : Outside) (world_eq : result.2.session.world
      = { concourse.world with environment := act.apply concourse.world.environment })
    (underway : concourse.underway = Session.underway result.2.agenda)
    (silent : Trail.turns result.1 = []) (quiet : Trail.woken result.1 = []) :
    ∃ next, Answers concourse next result := by
  by_cases polls : ∃ future waker, act = .poll future waker
  · obtain ⟨future, waker, rfl⟩ := polls
    by_cases known : future.cell < concourse.cells.length
    · refine ⟨_, .silently (.move .here (.poll future waker known)) world_eq.symm underway ?_ ?_
        silent quiet⟩
      · exact List.filterMap_append.trans (List.append_nil _)
      · exact List.flatMap_append.trans (List.append_nil _)
    · refine ⟨concourse, .silently .here ?_ underway rfl rfl silent quiet⟩
      rw [world_eq]
      show concourse.world = { concourse.world with
        environment := { concourse.world.environment with
          cells := (concourse.cells.poll future waker).2 } }
      rw [Cells.poll_of_unknown known]
      rfl
  · have move : Concourse.Move concourse _ :=
      .outside act fun future waker same => polls ⟨future, waker, same⟩
    exact ⟨_, .silently (.move .here move) world_eq.symm underway rfl rfl silent quiet⟩

private theorem answers_of_outcome (world : concourse.world = machine.session.world)
    (underway : concourse.underway = task.operation?.toList ++ Session.underway machine.agenda)
    (outcome : Outcome machine task result)
    (woken_eq : Trail.woken result.1 = (Trail.turns result.1).flatMap Turn.woken) :
    ∃ next, Answers concourse next result := by
  have quiet : Trail.turns result.1 = [] → Trail.woken result.1 = [] := by
    intro silent
    rw [woken_eq, silent]
    rfl
  cases outcome with
  | begins idle uncalled silent begins =>
    obtain ⟨fresh, agenda_eq, areFresh⟩ := begins.agenda_eq
    have leads := concourse.leads_enter (Session.underway fresh)
      (Point.opening_of_mem_underway areFresh)
    refine ⟨_, .silently leads (world.trans begins.world_eq.symm) ?_ rfl rfl silent (quiet silent)⟩
    rw [agenda_eq, Point.underway_append, underway, idle]
    rfl
  | acts act idle uncalled world_eq agenda_eq =>
    refine answers_of_act act ?_ ?_ rfl rfl
    · rw [world_eq, world]
    · rw [agenda_eq, underway, idle]
      rfl
  | breaksOff idle uncalled world_eq agenda_eq =>
    refine ⟨_, .silently concourse.leads_abandon (world.trans world_eq.symm) ?_ rfl rfl rfl rfl⟩
    rw [agenda_eq]
    rfl
  | calls silent world_eq agenda_eq =>
    refine ⟨_, .silently .here (world.trans world_eq.symm) ?_ rfl rfl silent (quiet silent)⟩
    rw [agenda_eq, Point.underway_append, underway,
      Point.underway_eq_nil fun task member => (isFresh_of_mem_tasks member).2]
    rfl
  | defers fresh world_eq agenda_eq areFresh =>
    refine ⟨_, .silently .here (world.trans world_eq.symm) ?_ rfl rfl rfl rfl⟩
    rw [agenda_eq, Point.underway_append, underway,
      Point.underway_eq_nil fun task member => (areFresh task member).2]
    rfl
  | @drops _ client phase _ operation unknown world_eq agenda_eq =>
    rw [operation] at underway
    have leads := Concourse.Leads.move .here
      (.abandon [] (Session.underway machine.agenda) client phase underway)
    refine ⟨_, .silently leads (world.trans world_eq.symm) ?_ rfl rfl rfl rfl⟩
    rw [agenda_eq]
    rfl
  | @fails _ client phase turn after _ _ operation made failed world_eq agenda_eq =>
    rw [operation] at underway
    rw [← world] at made
    -- The turn is made, and then all that was left to be done is given up.
    have proceeds := Concourse.Move.proceed [] (Session.underway machine.agenda) client phase turn
      after underway made
    refine ⟨_, .turned ((Concourse.Leads.move .here proceeds).trans (Concourse.leads_abandon _))
      world_eq.symm ?_ rfl rfl⟩
    rw [agenda_eq]
    rfl
  | @turns _ client phase turn after next fresh operation made world_eq agenda_eq areFresh asleep =>
    rw [operation] at underway
    rw [← world] at made
    have proceeds := Concourse.Move.proceed [] (Session.underway machine.agenda) client phase turn
      after underway made
    refine ⟨_, .turned (.move .here proceeds) world_eq.symm ?_ rfl rfl⟩
    rw [agenda_eq, Point.underway_append, Point.underway_append, Point.underway_following,
      Point.underway_eq_nil fun task member => (areFresh task member).2]
    rfl

private theorem underway_eq_of_direct (direct : Direct machine task result) :
    Session.underway result.2.agenda = Session.underway machine.agenda := by
  obtain ⟨fresh, agenda_eq, idle⟩ := direct.agenda_eq
  rw [agenda_eq, Point.underway_append, Point.underway_eq_nil idle]
  rfl

/-- Past the clients, an entry is made and used up for the response, and its callback is let run. -/
private theorem answers_of_direct (world : concourse.world = machine.session.world)
    (underway : concourse.underway = Session.underway machine.agenda)
    (direct : Direct machine task result) : ∃ next, Answers concourse next result := by
  have underway := underway.trans (underway_eq_of_direct direct).symm
  have silent := direct.silent
  have cells_eq : machine.session.cells = concourse.cells := by
    show machine.session.world.environment.cells = concourse.world.environment.cells
    rw [world]
  cases direct with
  | unknown => exact ⟨_, .silently .here world underway rfl rfl rfl rfl⟩
  | @refused reference value callback own future error refused =>
    rw [cells_eq] at refused
    by_cases known : future.cell < concourse.cells.length
    · have leads : concourse.Leads _ := .move (.move .here (.make ⟨future, callback, .origin⟩ known))
        (.refuse [] concourse.entries _ value error rfl refused)
      refine ⟨_, .silently leads world underway ?_ ?_ rfl rfl⟩
      · simp [Concourse.turns, Concourse.did]
      · simp [Concourse.woken, Concourse.did, Deed.woken, Attempt.wakers]
    · exact ⟨_, .silently .here world underway rfl rfl rfl rfl⟩
  | @filled reference value callback own future wakers completed cells filled =>
    have told : Trail.woken (wakers.map Occurrence.woke) = wakers := by
      unfold Trail.woken
      rw [List.flatMap_map]
      exact List.flatMap_singleton' wakers
    rw [cells_eq] at filled
    by_cases known : future.cell < concourse.cells.length
    · have resolved : concourse.Leads _ :=
        .move (.move .here (.make ⟨future, callback, .origin⟩ known))
          (.resolve [] concourse.entries _ value wakers completed cells rfl filled)
      refine ⟨_, .move resolved (.notify [] concourse.completed completed rfl), ?_, underway, ?_, ?_⟩
      · exact congrArg (fun known : World Program =>
          { known with environment := { known.environment with cells } }) world
      · rw [silent]
        simp [Concourse.turns, Concourse.did, Concourse.withCells]
      · rw [told]
        simp [Concourse.woken, Concourse.did, Concourse.withCells, Deed.woken, Attempt.wakers]
    · unfold Pending.Entry.resolve at filled
      split at filled
      next fills =>
        cases filled
        obtain ⟨rfl, rfl⟩ := Cells.resolve_of_unknown known fills
        refine ⟨_, .silently .here ?_ underway rfl rfl silent told⟩
        exact congrArg (fun known : World Program =>
          { known with environment := { known.environment with cells := concourse.cells } }) world
      next => cases filled

/-- Whatever a task does, a concourse does it too. -/
theorem exists_answers (machine : Machine) (task : Task)
    (world : concourse.world = machine.session.world)
    (underway : concourse.underway = task.operation?.toList ++ Session.underway machine.agenda) :
    ∃ next, Answers concourse next (machine.carryOut task) := by
  cases keeps : task.isDirect with
  | false =>
    exact answers_of_outcome world underway (machine.outcome_carryOut keeps)
      (machine.woken_carryOut task keeps)
  | true =>
    have idle : task.operation? = none := by
      unfold Task.isDirect at keeps
      split at keeps
      · rfl
      · cases keeps
    rw [idle] at underway
    exact answers_of_direct world underway (machine.direct_carryOut keeps)

end Machine

namespace Point

variable {session : Session} {point : Point}

/-- A concourse has the same clients, the same turns and the same wake-ups as a point, and all that clients share;
and the operations of its agenda are under way. -/
structure Matches (point : Point) (concourse : Concourse Program) : Prop where
  world : concourse.world = point.machine.session.world
  underway : concourse.underway = Session.underway point.machine.agenda
  turns : concourse.turns = point.turns
  woken : concourse.woken = point.trail.woken

/-- Every run of a session follows a concourse of its clients, whatever is done past them on the way. -/
theorem Leads.matched (leads : (opening session).Leads point) :
    ∃ concourse, (Concourse.opening session.world).Leads concourse ∧ point.Matches concourse := by
  induction leads with
  | here => exact ⟨_, .here, rfl, rfl, rfl, rfl⟩
  | ask op leads idle inductionHypothesis =>
    obtain ⟨concourse, led, matched⟩ := inductionHypothesis
    refine ⟨concourse, led, matched.world, ?_, matched.turns, matched.woken⟩
    rw [matched.underway, idle]
    rfl
  | @work point task agenda leads first inductionHypothesis =>
    obtain ⟨concourse, led, matched⟩ := inductionHypothesis
    have split : concourse.underway = task.operation?.toList ++ Session.underway agenda := by
      rw [matched.underway, first, underway_cons]
    obtain ⟨next, answers⟩ :=
      Machine.exists_answers { point.machine with agenda } task matched.world split
    refine ⟨next, led.trans answers.leads, answers.world, answers.underway, ?_, ?_⟩
    · unfold Point.work
      rw [turns_after, answers.turns, matched.turns]
    · rw [answers.woken, matched.woken]
      exact List.flatMap_append.symm

/-- In every run that begins without cells, each cell has lived through polls and attempts to complete its request,
of which the first alone succeeds. -/
theorem Leads.cells_traced (leads : (opening session).Leads point) (fresh : session.world.IsFresh)
    (noCells : session.world.environment.cells = []) :
    ∃ record, point.machine.session.cells.Traced record := by
  obtain ⟨concourse, led, matched⟩ := leads.matched
  have traced := (led.isOnRecord (Concourse.isOnRecord_opening fresh noCells)).traced
  unfold Concourse.cells at traced
  rw [matched.world] at traced
  exact ⟨concourse.record, traced⟩

end Point

end Session

end Correlator
