import Correlator.Proofs.Course.History
import Correlator.Proofs.Session.Outcome
import Correlator.Proofs.Session.Start

/-!
Contract: runs of a session, task by task, and the courses that they follow.

Owns: the points that a run can come to, the order of the agenda at each of them, and that each mirrors
a course of the session's clients.

Does not own: what holds along courses (`Correlator.Proofs.Course`), and that the running of an operation
comes to such points (`Correlator.Proofs.Session.Execution`).
-/

set_option autoImplicit false

namespace Correlator.Session

/-- A session between two tasks, with the tasks done so far and what happened meanwhile. -/
structure Point where
  machine : Machine
  done : List Task := []
  trail : Trail := []
deriving Repr

namespace Point

def opening (session : Session) : Point := { machine := { session, agenda := [] } }

/-- The user asks for an operation. -/
def ask (point : Point) (op : Op) : Point :=
  { point with machine := { session := point.machine.session, agenda := [.perform op none] } }

/-- The point after a task with what it brings. -/
def after (point : Point) (task : Task) (result : Machine.Result) : Point :=
  ⟨result.2, point.done ++ [task], point.trail ++ result.1⟩

/-- A task is done that was taken from the agenda, with the rest of the agenda. -/
def work (point : Point) (task : Task) (agenda : List Task) : Point :=
  point.after task ({ point.machine with agenda }.carryOut task)

/-- The points that a point leads to. The user asks only when nothing is left to be done. -/
inductive Leads (start : Point) : Point → Prop where
  | here : Leads start start
  | ask {point : Point} (op : Op) (leads : Leads start point) (idle : point.machine.agenda = []) :
      Leads start (point.ask op)
  | work {point : Point} (task : Task) (agenda : List Task) (leads : Leads start point)
      (first : point.machine.agenda = task :: agenda) : Leads start (point.work task agenda)

/-- What the clients did so far. -/
def turns (point : Point) : List (Turn Program) := point.trail.turns

/-- The callbacks that ran so far, each with its future. -/
def calls (point : Point) : List (Future × Program) := point.done.filterMap Task.call?

/-- No request was completed past all clients. Such a completion wants the entry of the request to be
out of every table, and does not see to it. -/
def KeepsToClients (point : Point) : Prop := ∀ task ∈ point.done, task.isDirect = false

instance (point : Point) : Decidable point.KeepsToClients :=
  inferInstanceAs (Decidable (∀ task ∈ point.done, task.isDirect = false))

/-- The operation that goes on next. -/
def operation? (point : Point) : Option (ClientId × Phase Program) :=
  point.machine.agenda.head?.bind Task.operation?

def next (point : Point) : Point :=
  match point.machine.agenda with
  | [] => point
  | task :: agenda => point.work task agenda

theorem Leads.next {start point : Point} (leads : start.Leads point) : start.Leads point.next := by
  unfold Point.next
  split
  · exact leads
  next task agenda first => exact leads.work task agenda first

theorem next_eq_work {point : Point} {task : Task} {agenda : List Task}
    (first : point.machine.agenda = task :: agenda) : point.next = point.work task agenda := by
  unfold Point.next
  split
  next idle =>
    rw [idle] at first
    cases first
  next known later found =>
    rw [found] at first
    cases first
    rfl

/-- A submit that the user asks for makes its step and then records the future. -/
theorem next_of_ask_submit {point : Point} {index : ClientId} {client : Client Program}
    (found : point.machine.session.client? index = some client) (request : Request)
    (callback : Option Program) :
    (point.ask (.submit index request callback)).next
      = ⟨{ session := point.machine.session
           agenda := [.advance index (.submit request callback), .finish .submission] },
          point.done ++ [.perform (.submit index request callback) none], point.trail⟩ := by
  show (point.ask _).after _ (Machine.call _ index _ _) = _
  unfold Machine.call
  simp only [ask, found]
  exact congrArg (Point.mk _ _) (List.append_nil point.trail)

theorem turns_after (point : Point) (task : Task) (result : Machine.Result) :
    (point.after task result).turns = point.turns ++ Trail.turns result.1 :=
  List.filterMap_append

theorem turns_after_silent (point : Point) (task : Task) {occurrences : Trail}
    (silent : occurrences.turns = []) (next : Machine) :
    (point.after task (occurrences, next)).turns = point.turns := by
  rw [turns_after, silent, List.append_nil]

theorem calls_after (point : Point) (task : Task) (result : Machine.Result) :
    (point.after task result).calls = point.calls ++ task.call?.toList := by
  unfold calls after
  rw [List.filterMap_append]
  cases call : task.call? <;> simp [call]

theorem KeepsToClients.of_work {point : Point} {task : Task} {agenda : List Task}
    (keeps : (point.work task agenda).KeepsToClients) :
    point.KeepsToClients ∧ task.isDirect = false :=
  ⟨fun earlier member => keeps earlier (List.mem_append_left _ member),
    keeps task (List.mem_append_right _ (List.mem_singleton.mpr rfl))⟩

theorem Leads.trans {start middle finish : Point} (first : start.Leads middle)
    (second : middle.Leads finish) : start.Leads finish := by
  induction second with
  | here => exact first
  | ask op _ idle inductionHypothesis => exact .ask op inductionHypothesis idle
  | work task agenda _ next inductionHypothesis => exact .work task agenda inductionHypothesis next

theorem Leads.done_eq_append {start point : Point} (leads : start.Leads point) :
    ∃ later, point.done = start.done ++ later := by
  induction leads with
  | here => exact ⟨[], (List.append_nil _).symm⟩
  | ask op _ idle inductionHypothesis => exact inductionHypothesis
  | @work point task agenda _ first inductionHypothesis =>
    obtain ⟨later, equal⟩ := inductionHypothesis
    refine ⟨later ++ [task], ?_⟩
    rw [← List.append_assoc, ← equal]
    rfl

theorem Leads.turns_eq_append {start point : Point} (leads : start.Leads point) :
    ∃ later, point.turns = start.turns ++ later := by
  induction leads with
  | here => exact ⟨[], (List.append_nil _).symm⟩
  | ask op _ idle inductionHypothesis => exact inductionHypothesis
  | @work point task agenda _ first inductionHypothesis =>
    obtain ⟨later, equal⟩ := inductionHypothesis
    unfold Point.work
    rw [turns_after, equal, List.append_assoc]
    exact ⟨_, rfl⟩

theorem KeepsToClients.of_leads {start point : Point} (keeps : point.KeepsToClients)
    (leads : start.Leads point) : start.KeepsToClients := by
  obtain ⟨later, equal⟩ := leads.done_eq_append
  intro task member
  exact keeps task (equal ▸ List.mem_append_left later member)

/-- Every turn was made at an earlier point. -/
theorem Leads.turn_made {session : Session} {point : Point} (leads : (opening session).Leads point)
    (keeps : point.KeepsToClients) {turn : Turn Program} (member : turn ∈ point.turns) :
    ∃ earlier world, (opening session).Leads earlier ∧ earlier.Leads point
      ∧ earlier.operation? = some (turn.client, turn.phase)
      ∧ earlier.machine.session.world.step? turn.client turn.phase = some (turn, world) := by
  induction leads with
  | here => cases member
  | ask op leads idle inductionHypothesis =>
    obtain ⟨earlier, world, before, later, operation, made⟩ := inductionHypothesis keeps member
    exact ⟨earlier, world, before, later.ask op idle, operation, made⟩
  | @work point task agenda leads first inductionHypothesis =>
    obtain ⟨kept, keepsNow⟩ := keeps.of_work
    have outcome := Machine.outcome_carryOut { point.machine with agenda } keepsNow
    unfold Point.work at member
    rw [turns_after] at member
    rcases List.mem_append.mp member with old | new
    · obtain ⟨earlier, world, before, later, operation, made⟩ := inductionHypothesis kept old
      exact ⟨earlier, world, before, later.work task agenda first, operation, made⟩
    · rcases outcome.turns_eq with none | ⟨only, world, one, operation, made⟩
      · rw [none] at new
        cases new
      · rw [one] at new
        rw [List.mem_singleton.mp new]
        refine ⟨point, world, leads, .work task agenda .here first, ?_, made⟩
        rw [Point.operation?, first]
        exact operation

/-! ### The order of the agenda -/

end Point

/-- The middle of a complete: no other task may come before it. -/
def Task.isUrgent : Task → Bool
  | .advance _ phase | .step _ phase => phase.isCompleting
  | .callBack _ _ => true
  | _ => false

theorem Task.not_urgent_of_isFresh {task : Task} (fresh : task.isFresh = true) :
    task.isUrgent = false := by
  cases task with
  | advance client phase | step client phase => exact Phase.not_completing_of_opening fresh
  | callBack future callback => cases fresh
  | _ => rfl

theorem Task.call?_of_not_urgent {task : Task} (calm : task.isUrgent = false) :
    task.call? = none := by
  cases task <;> first | rfl | cases calm

theorem Task.isUrgent_of_operation {task : Task} {client : ClientId} {phase : Phase Program}
    (operation : task.operation? = some (client, phase)) :
    task.isUrgent = phase.isCompleting := by
  cases task <;> first | cases operation; rfl | cases operation

namespace Point

/-- Only the first task may be the middle of a complete, of a client that exists, and the callbacks
that turns handed over to have run or are next. -/
structure InOrder (point : Point) : Prop where
  calm : ∀ task ∈ point.machine.agenda.tail, task.isUrgent = false
  known : ∀ task ∈ point.machine.agenda, task.isUrgent = true → ∀ client phase,
    task.operation? = some (client, phase) → client < point.machine.session.world.clients.length
  calls : point.turns.filterMap Turn.handover?
    = point.calls ++ point.machine.agenda.filterMap Task.call?

private theorem InOrder.of_calm {point : Point}
    (calm : ∀ task ∈ point.machine.agenda, task.isUrgent = false)
    (calls : point.turns.filterMap Turn.handover? = point.calls) : point.InOrder := by
  refine ⟨fun task member => calm task (List.mem_of_mem_tail member), ?_, ?_⟩
  · intro task member urgent
    rw [calm task member] at urgent
    cases urgent
  · rw [calls, List.filterMap_eq_nil_iff.mpr fun task member =>
      Task.call?_of_not_urgent (calm task member), List.append_nil]

private theorem calm_following {client : ClientId} {next : Next Program}
    (aside : next.isAside = true) : ∀ task ∈ following client next, task.isUrgent = false := by
  intro task member
  cases next with
  | goesOn phase =>
    rw [List.mem_singleton.mp member]
    simpa [Next.isAside, Task.isUrgent] using aside
  | callsBack future callback => cases aside
  | returned result | failed fault => cases member

private theorem handover?_of_isAside {turn : Turn Program} (aside : turn.next.isAside = true) :
    turn.handover? = none := by
  unfold Turn.handover?
  split
  next future callback next =>
    rw [next] at aside
    cases aside
  next => rfl

/-- What a turn leaves to be done is in order, in front of calm tasks. -/
private theorem InOrder.of_following {point : Point} {client : ClientId} {turn : Turn Program}
    {agenda : List Task} (agenda_eq : point.machine.agenda = following client turn.next ++ agenda)
    (rest : ∀ task ∈ agenda, task.isUrgent = false)
    (known : client < point.machine.session.world.clients.length)
    (calls : point.turns.filterMap Turn.handover? = point.calls ++ turn.handover?.toList) :
    point.InOrder := by
  have quiet : agenda.filterMap Task.call? = [] := List.filterMap_eq_nil_iff.mpr
    fun task member => Task.call?_of_not_urgent (rest task member)
  cases next : turn.next with
  | goesOn phase =>
    rw [next] at agenda_eq
    refine ⟨?_, ?_, ?_⟩
    · rw [agenda_eq]
      exact rest
    · intro task member urgent client phase operation
      rw [agenda_eq] at member
      rcases List.mem_cons.mp member with rfl | later
      · cases operation
        exact known
      · rw [rest task later] at urgent
        cases urgent
    · rw [calls, agenda_eq, Turn.handover?, next, List.filterMap_append, quiet]
      rfl
  | callsBack future callback =>
    rw [next] at agenda_eq
    refine ⟨?_, ?_, ?_⟩
    · rw [agenda_eq]
      intro task member
      rcases List.mem_cons.mp member with rfl | later
      · rfl
      · exact rest task later
    · intro task member urgent client phase operation
      rw [agenda_eq] at member
      rcases List.mem_cons.mp member with rfl | later
      · cases operation
      · rcases List.mem_cons.mp later with rfl | last
        · cases operation
        · rw [rest task last] at urgent
          cases urgent
    · rw [calls, agenda_eq, Turn.handover?, next, List.filterMap_append, quiet]
      rfl
  | returned result | failed fault =>
    rw [next] at agenda_eq
    refine .of_calm (by rw [agenda_eq]; exact rest) ?_
    rw [calls, Turn.handover?, next]
    exact List.append_nil _

theorem InOrder.after {point : Point} (inOrder : point.InOrder) {task : Task} {agenda : List Task}
    (first : point.machine.agenda = task :: agenda) {result : Machine.Result}
    (outcome : Machine.Outcome { point.machine with agenda } task result) :
    (point.after task result).InOrder := by
  have rest : ∀ later ∈ agenda, later.isUrgent = false := by
    have calm := inOrder.calm
    rw [first] at calm
    exact calm
  have handed : point.turns.filterMap Turn.handover? = (point.after task result).calls := by
    rw [inOrder.calls, first, List.filterMap_cons, calls_after]
    rw [List.filterMap_eq_nil_iff.mpr fun later member =>
      Task.call?_of_not_urgent (rest later member)]
    cases task.call? <;> rfl
  have turned := point.turns_after task result
  cases outcome with
  | begins idle uncalled silent begins =>
    obtain ⟨fresh, agenda_eq, areFresh⟩ := begins.agenda_eq
    refine .of_calm (fun later member => ?_) (by rw [point.turns_after_silent _ silent, handed])
    rcases List.mem_append.mp (agenda_eq ▸ member) with new | old
    · exact Task.not_urgent_of_isFresh (areFresh later new)
    · exact rest later old
  | acts act idle uncalled world_eq agenda_eq =>
    refine .of_calm (fun later member => ?_) ?_
    · rw [Point.after, agenda_eq] at member
      exact rest later member
    · rw [point.turns_after_silent _ rfl, handed]
  | breaksOff idle uncalled world_eq agenda_eq =>
    refine .of_calm (fun later member => ?_) ?_
    · rw [Point.after, agenda_eq] at member
      cases member
    · rw [point.turns_after_silent _ rfl, handed]
  | calls silent world_eq agenda_eq =>
    refine .of_calm (fun later member => ?_) (by rw [point.turns_after_silent _ silent, handed])
    rcases List.mem_append.mp (agenda_eq ▸ member) with new | old
    · exact Task.not_urgent_of_isFresh (Machine.isFresh_of_mem_tasks new).1
    · exact rest later old
  | defers fresh world_eq agenda_eq areFresh =>
    refine .of_calm (fun later member => ?_) ?_
    · rcases List.mem_append.mp (agenda_eq ▸ member) with new | old
      · exact Task.not_urgent_of_isFresh (areFresh later new).1
      · rcases List.mem_cons.mp old with rfl | last
        · rfl
        · exact rest later last
    · rw [point.turns_after_silent _ rfl, handed]
  | drops operation unknown world_eq agenda_eq =>
    refine .of_calm (fun later member => ?_) ?_
    · rw [Point.after, agenda_eq] at member
      exact rest later member
    · rw [point.turns_after_silent _ rfl, handed]
  | @fails _ _ _ turn _ _ _ operation made failed world_eq agenda_eq =>
    refine .of_calm (fun later member => ?_) ?_
    · rw [Point.after, agenda_eq] at member
      cases member
    · have nothing : turn.handover? = none := by rw [Turn.handover?, failed]
      rw [turned, List.filterMap_append, handed]
      simp [Trail.turns, nothing]
  | @turns _ client _ turn _ next fresh operation made world_eq agenda_eq areFresh asleep =>
    have handedOver : (point.after task ([.turn turn], next)).turns.filterMap Turn.handover?
        = (point.after task ([.turn turn], next)).calls ++ turn.handover?.toList := by
      rw [turned, List.filterMap_append, handed]
      cases handover : turn.handover? <;> simp [Trail.turns, handover]
    -- A program that runs after a sleep comes before no complete, since no step of one sleeps.
    rcases asleep with rfl | aside
    · refine .of_following agenda_eq rest ?_ handedOver
      obtain ⟨known, found, rfl, rfl⟩ := World.step?_eq_some made
      have below := (List.getElem?_eq_some_iff.mp found).1
      rw [Point.after, world_eq]
      simpa using below
    · refine .of_calm (fun later member => ?_) ?_
      · rcases List.mem_append.mp (agenda_eq ▸ member) with new | old
        · exact Task.not_urgent_of_isFresh (areFresh later new).1
        · rcases List.mem_append.mp old with left | last
          · exact calm_following aside later left
          · exact rest later last
      · rw [handedOver, handover?_of_isAside aside]
        exact List.append_nil _

theorem InOrder.ask {point : Point} (inOrder : point.InOrder) (op : Op)
    (idle : point.machine.agenda = []) : (point.ask op).InOrder := by
  have calls := inOrder.calls
  rw [idle, List.filterMap_nil, List.append_nil] at calls
  refine .of_calm (fun task member => ?_) calls
  rw [List.mem_singleton.mp member]
  rfl

theorem Leads.inOrder_of {start point : Point} (leads : start.Leads point)
    (inOrder : start.InOrder) (keeps : point.KeepsToClients) : point.InOrder := by
  induction leads with
  | here => exact inOrder
  | ask op leads idle inductionHypothesis => exact (inductionHypothesis keeps).ask op idle
  | work task agenda leads first inductionHypothesis =>
    obtain ⟨earlier, kept⟩ := keeps.of_work
    exact (inductionHypothesis earlier).after first (Machine.outcome_carryOut _ kept)

theorem Leads.inOrder {session : Session} {point : Point} (leads : (opening session).Leads point)
    (keeps : point.KeepsToClients) : point.InOrder :=
  leads.inOrder_of (.of_calm (by simp [opening]) rfl) keeps

/-! ### The course of a run -/

/-- A course has the same clients and the same turns as a point, and the operations of its agenda
under way. -/
structure Mirrors (point : Point) (course : Course Program) : Prop where
  world : course.world = point.machine.session.world
  underway : course.underway = underway point.machine.agenda
  turns : course.turns = point.turns

theorem Mirrors.client? {point : Point} {course : Course Program} (mirrors : Mirrors point course)
    {index : ClientId} {client : Client Program}
    (found : point.machine.session.client? index = some client) :
    course.world.clients[index]? = some client := by
  rw [mirrors.world]
  exact found

theorem underway_cons (task : Task) (rest : List Task) :
    Session.underway (task :: rest) = task.operation?.toList ++ Session.underway rest := by
  unfold Session.underway
  cases operation : task.operation? <;> simp [operation]

theorem underway_append (front back : List Task) :
    Session.underway (front ++ back) = Session.underway front ++ Session.underway back :=
  List.filterMap_append

theorem underway_eq_nil {tasks : List Task}
    (idle : ∀ task ∈ tasks, task.operation? = none) : Session.underway tasks = [] :=
  List.filterMap_eq_nil_iff.mpr idle

theorem underway_following (client : ClientId) (next : Next Program) :
    Session.underway (following client next)
      = (next.phase?.map fun phase => (client, phase)).toList := by
  cases next <;> rfl

theorem opening_of_mem_underway {tasks : List Task}
    (areFresh : ∀ task ∈ tasks, task.isFresh = true) :
    ∀ operation ∈ Session.underway tasks, operation.2.isOpening = true := by
  intro operation member
  obtain ⟨task, inside, found⟩ := List.mem_filterMap.mp member
  have fresh := areFresh task inside
  cases task with
  | advance client phase | step client phase =>
    cases found
    exact fresh
  | _ => cases found

theorem not_completing_of_mem_underway {tasks : List Task}
    (calm : ∀ task ∈ tasks, task.isUrgent = false) :
    ∀ operation ∈ Session.underway tasks, operation.2.isCompleting = false := by
  intro operation member
  obtain ⟨task, inside, found⟩ := List.mem_filterMap.mp member
  have notUrgent := calm task inside
  cases task with
  | advance client phase | step client phase =>
    cases found
    exact notUrgent
  | _ => cases found

theorem Mirrors.after {point : Point} {course : Course Program} (mirrors : Mirrors point course)
    (inOrder : point.InOrder) {task : Task} {agenda : List Task}
    (first : point.machine.agenda = task :: agenda) {result : Machine.Result}
    (outcome : Machine.Outcome { point.machine with agenda } task result) :
    ∃ next, course.Leads next ∧ Mirrors (point.after task result) next := by
  have rest : ∀ later ∈ agenda, later.isUrgent = false := by
    have calm := inOrder.calm
    rw [first] at calm
    exact calm
  have split : course.underway = task.operation?.toList ++ Session.underway agenda := by
    rw [mirrors.underway, first, underway_cons]
  have same := mirrors.turns
  have turned := point.turns_after task result
  cases outcome with
  | begins idle uncalled silent begins =>
    obtain ⟨fresh, agenda_eq, areFresh⟩ := begins.agenda_eq
    refine ⟨_, course.leads_enter (Session.underway fresh) (opening_of_mem_underway areFresh),
      mirrors.world.trans begins.world_eq.symm, ?_, ?_⟩
    · rw [Point.after, agenda_eq, underway_append, split, idle]
      rfl
    · exact same.trans (point.turns_after_silent _ silent _).symm
  | acts act idle uncalled world_eq agenda_eq =>
    refine ⟨_, .move .here (.outside act), ?_, ?_, ?_⟩
    · rw [Point.after, world_eq, mirrors.world]
    · rw [Point.after, agenda_eq, split, idle]
      rfl
    · exact same.trans (point.turns_after_silent _ rfl _).symm
  | breaksOff idle uncalled world_eq agenda_eq =>
    refine ⟨_, course.leads_abandon ?_, mirrors.world.trans world_eq.symm, ?_, ?_⟩
    · rw [split, idle]
      exact not_completing_of_mem_underway rest
    · rw [Point.after, agenda_eq]
      rfl
    · exact same.trans (point.turns_after_silent _ rfl _).symm
  | calls silent world_eq agenda_eq =>
    refine ⟨_, .here, mirrors.world.trans world_eq.symm, ?_, ?_⟩
    · rw [Point.after, agenda_eq, underway_append, split,
        underway_eq_nil fun task member => (Machine.isFresh_of_mem_tasks member).2]
      rfl
    · exact same.trans (point.turns_after_silent _ silent _).symm
  | defers fresh world_eq agenda_eq areFresh =>
    refine ⟨_, .here, mirrors.world.trans world_eq.symm, ?_, ?_⟩
    · rw [Point.after, agenda_eq, underway_append, split,
        underway_eq_nil fun task member => (areFresh task member).2]
      rfl
    · exact same.trans (point.turns_after_silent _ rfl _).symm
  | @drops _ client phase _ operation unknown world_eq agenda_eq =>
    rw [operation] at split
    refine ⟨_, .move .here (.abandon [] (Session.underway agenda) client phase split ?_),
      mirrors.world.trans world_eq.symm, ?_, ?_⟩
    · -- In the middle of a complete the client is known to be there, so nothing is dropped then.
      rw [← Task.isUrgent_of_operation operation]
      by_contra urgent
      have below := inOrder.known task (first ▸ List.mem_cons_self) (by simpa using urgent) client
        phase operation
      simp [World.step?, below] at unknown
    · rw [Point.after, agenda_eq]
      rfl
    · exact same.trans (point.turns_after_silent _ rfl _).symm
  | @fails _ client phase turn world _ _ operation made failed world_eq agenda_eq =>
    rw [operation] at split
    have made : course.world.step? client phase = some (turn, world) := mirrors.world ▸ made
    -- The turn is made, and then all that was left to be done is given up.
    have proceeds := Course.Move.proceed [] (Session.underway agenda) client phase turn world split
      made
    refine ⟨_, (Course.Leads.move .here proceeds).trans (Course.leads_abandon _ ?_),
      world_eq.symm, ?_, ?_⟩
    · rw [failed]
      exact not_completing_of_mem_underway rest
    · rw [Point.after, agenda_eq]
      rfl
    · rw [turned]
      exact congrArg (· ++ [turn]) same
  | @turns _ client phase turn world next fresh operation made world_eq agenda_eq areFresh asleep =>
    rw [operation] at split
    have made : course.world.step? client phase = some (turn, world) := mirrors.world ▸ made
    refine ⟨_, .move .here (.proceed [] (Session.underway agenda) client phase turn world split made),
      world_eq.symm, ?_, ?_⟩
    · rw [Point.after, agenda_eq, underway_append, underway_append, underway_following,
        underway_eq_nil fun task member => (areFresh task member).2]
      rfl
    · rw [turned]
      exact congrArg (· ++ [turn]) same

/-- A run that keeps to the clients follows a course of theirs. -/
theorem Leads.mirrors_of {start point : Point} (leads : start.Leads point) (inOrder : start.InOrder)
    {course : Course Program} (mirrors : Mirrors start course) (keeps : point.KeepsToClients) :
    ∃ next, course.Leads next ∧ Mirrors point next := by
  induction leads with
  | here => exact ⟨course, .here, mirrors⟩
  | ask op leads idle inductionHypothesis =>
    obtain ⟨next, led, mirrored⟩ := inductionHypothesis keeps
    refine ⟨next, led, mirrored.world, ?_, mirrored.turns⟩
    rw [mirrored.underway, idle]
    rfl
  | work task agenda leads first inductionHypothesis =>
    obtain ⟨earlier, kept⟩ := keeps.of_work
    obtain ⟨next, led, mirrored⟩ := inductionHypothesis earlier
    obtain ⟨last, onward, mirroredLast⟩ := mirrored.after (leads.inOrder_of inOrder earlier) first
      (Machine.outcome_carryOut _ kept)
    exact ⟨last, led.trans onward, mirroredLast⟩

/-- Every point of a run that keeps to the clients mirrors a course of theirs. -/
theorem Leads.mirrors {session : Session} {point : Point} (leads : (opening session).Leads point)
    (keeps : point.KeepsToClients) :
    ∃ course, (Course.opening session.world).Leads course ∧ Mirrors point course :=
  leads.mirrors_of (.of_calm (by simp [opening]) rfl) ⟨rfl, rfl, rfl⟩ keeps

/-- The tables are in order at every point of a run. -/
theorem filed_of_leads {session : Session} {point : Point} {index : ClientId}
    {client : Client Program} (leads : (opening session).Leads point)
    (keeps : point.KeepsToClients) (fresh : session.world.IsFresh)
    (found : point.machine.session.client? index = some client) : client.table.Filed := by
  obtain ⟨course, led, mirrors⟩ := leads.mirrors keeps
  exact (led.sound fresh).filed index client (mirrors.client? found)

/-- At every point of a run, every pending request would take a response. -/
theorem takesResponses_of_leads {session : Session} {point : Point} {index : ClientId}
    {client : Client Program} (leads : (opening session).Leads point)
    (keeps : point.KeepsToClients) (fresh : session.world.IsFresh)
    (found : point.machine.session.client? index = some client) :
    client.TakesResponses point.machine.session.environment := by
  obtain ⟨course, led, mirrors⟩ := leads.mirrors keeps
  have takes := (led.sound fresh).takesResponses (mirrors.client? found)
  rw [mirrors.world] at takes
  exact takes

/-- A point inside a callback, which is about to submit a request of its own. -/
def insideCallback : Point :=
  (((opening solo).ask (.submit 0 "ping" (some [.submit 0 "again" none]))).next.next.next.ask
    (.complete 0 (.number ⟨1⟩) "pong")).next.next.next.next.next

theorem leads_insideCallback : (opening solo).Leads insideCallback :=
  .next (.next (.next (.next (.next (.ask _ (.next (.next (.next (.ask _ .here rfl)))) rfl)))))

end Point

end Correlator.Session
