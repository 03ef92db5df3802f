import Correlator.Proofs.Course.Interference
import Correlator.Proofs.Session.Run
import Correlator.Proofs.Session.Spawning

/-!
Contract: clients of a session do not interfere.

Owns: the points at which an operation is under way, that only clients make turns there on which operations
were begun, and that an operation leaves all other clients alone with the futures that they have given out.

Does not own: what turns leave alone (`Correlator.Proofs.Course.Interference`).
-/

set_option autoImplicit false

namespace Correlator.Session

/-- No task goes on with an operation of this client. -/
def Idles (tasks : List Task) (client : ClientId) : Prop :=
  ∀ task ∈ tasks, task.op? = none → task.client? ≠ some client

theorem Task.client?_of_operation {task : Task} {client : ClientId} {phase : Phase Program}
    (operation : task.operation? = some (client, phase)) :
    task.op? = none ∧ task.client? = some client := by
  cases task with
  | advance | step =>
    cases operation
    exact ⟨rfl, rfl⟩
  | _ => cases operation

theorem Task.client?_of_op {task : Task} {op : Op} (begins : task.op? = some op) :
    task.client? = op.client? := by
  cases task with
  | perform known future =>
    cases begins
    rfl
  | _ => cases begins

theorem Task.Spawns.idles {own : Option ClientId} {tasks : List Task} {client : ClientId}
    (spawns : Spawns own tasks) (apart : own ≠ some client) : Idles tasks client := by
  intro task member unasked
  rcases spawns.own task member unasked with none | same
  · rw [none]
    exact Option.some_ne_none _ |>.symm
  · rw [same]
    exact apart

namespace Point

/-- The points at which the work that was to be done at the first one is still under way, in front of the rest
of the agenda, each with the tasks that were done since. -/
inductive Within (rest : List Task) (start : Point) : List Task → Point → Prop where
  | here : Within rest start [] start
  | work {ran : List Task} {point : Point} (task : Task) (front : List Task)
      (within : Within rest start ran point)
      (first : point.machine.agenda = task :: (front ++ rest)) :
      Within rest start (ran ++ [task]) (point.work task (front ++ rest))

section Interference

variable {session : Session} {rest ran : List Task} {start point later : Point} {client : ClientId}

theorem Within.leads (within : start.Within rest ran later) : start.Leads later := by
  induction within with
  | here => exact .here
  | work task front _ first inductionHypothesis => exact inductionHypothesis.work task _ first

/-- With nothing else on the agenda, whatever is done belongs to the work under way. -/
theorem Within.next (within : start.Within [] ran point) {task : Task} {agenda : List Task}
    (first : point.machine.agenda = task :: agenda) :
    start.Within [] (ran ++ [task]) point.next := by
  have onward := within.work task agenda (by rw [first, List.append_nil])
  rw [List.append_nil, ← next_eq_work first] at onward
  exact onward

theorem Within.trans {middle : Point} {soon : List Task} (first : start.Within rest soon middle)
    (second : middle.Within rest ran later) : start.Within rest (soon ++ ran) later := by
  induction second with
  | here =>
    rw [List.append_nil]
    exact first
  | work task front _ next inductionHypothesis =>
    rw [← List.append_assoc]
    exact .work task front inductionHypothesis next

/-- The work under way, if all of it was not given up. -/
def AtWork (point : Point) (rest : List Task) (client : ClientId) : Prop :=
  point.machine.agenda = []
    ∨ ∃ front, point.machine.agenda = front ++ rest ∧ Idles front client

/-- A task that is done in front of the rest is not about the client, unless it begins an operation on it. -/
theorem AtWork.task {task : Task} {front : List Task} (atWork : point.AtWork rest client)
    (first : point.machine.agenda = task :: (front ++ rest))
    (spared : ∀ op, task.op? = some op → op.client? ≠ some client) :
    task.client? ≠ some client ∧ Idles front client := by
  rcases atWork with gone | ⟨known, same, idles⟩
  · rw [gone] at first
    cases first
  · rw [first, ← List.cons_append] at same
    obtain rfl := List.append_cancel_right same
    obtain ⟨own, others⟩ := List.forall_mem_cons.mp idles
    refine ⟨?_, others⟩
    cases begins : task.op? with
    | none => exact own begins
    | some op =>
      rw [Task.client?_of_op begins]
      exact spared op begins

/-- As long as no operation on a client is begun, it makes no turn. -/
theorem Within.idle (within : start.Within rest ran later) (keeps : later.KeepsToClients)
    (atWork : start.AtWork rest client)
    (spared : ∀ op ∈ ran.filterMap Task.op?, op.client? ≠ some client) :
    later.AtWork rest client
      ∧ ∃ turns, later.turns = start.turns ++ turns ∧ ∀ turn ∈ turns, turn.client ≠ client := by
  induction within with
  | here => exact ⟨atWork, [], (List.append_nil _).symm, by simp⟩
  | @work ran point task front within first inductionHypothesis =>
    obtain ⟨kept, keepsNow⟩ := keeps.of_work
    rw [List.filterMap_append] at spared
    obtain ⟨earlierSpared, taskSpared⟩ := List.forall_mem_append.mp spared
    obtain ⟨stillAtWork, turns, turns_eq, idle⟩ := inductionHypothesis kept earlierSpared
    obtain ⟨notAbout, others⟩ := stillAtWork.task first fun op begins =>
      taskSpared op (by simp [begins])
    constructor
    · rcases Machine.adds_carryOut { point.machine with agenda := front ++ rest } task with
        gone | ⟨fresh, equal, spawns⟩
      · exact .inl gone
      · refine .inr ⟨fresh ++ front, ?_, List.forall_mem_append.mpr
          ⟨spawns.idles notAbout, others⟩⟩
        rw [List.append_assoc]
        exact equal
    · have outcome :=
        Machine.outcome_carryOut { point.machine with agenda := front ++ rest } keepsNow
      have turned : (point.work task (front ++ rest)).turns = point.turns ++ _ :=
        point.turns_after task _
      rcases outcome.turns_eq with none | ⟨only, world, one, operation, made⟩
      · rw [none, List.append_nil] at turned
        exact ⟨turns, turned.trans turns_eq, idle⟩
      · rw [one] at turned
        refine ⟨turns ++ [only], by rw [turned, turns_eq, List.append_assoc], ?_⟩
        rw [List.forall_mem_append]
        refine ⟨idle, fun turn member => ?_⟩
        rw [List.mem_singleton.mp member]
        intro same
        have about := (Task.client?_of_operation operation).2
        rw [same] at about
        exact notAbout about

/-- Clients do not interfere. As long as an operation on one client is under way, however deep inside of
callbacks it began, and no operation on a second client is begun meanwhile, the second client is as it was
before, and so are the values of all futures that it has given out. -/
theorem non_interference (fresh : session.world.IsFresh) (leads : (opening session).Leads point)
    {op : Op} {own : Option Future} (first : point.machine.agenda = .perform op own :: rest)
    {acting bystander : ClientId} (on : op.client? = some acting) (apart : acting ≠ bystander)
    (within : (point.work (.perform op own) rest).Within rest ran later)
    (spared : ∀ inner ∈ ran.filterMap Task.op?, inner.client? ≠ some bystander)
    (keeps : later.KeepsToClients) :
    later.machine.session.client? bystander = point.machine.session.client? bystander
      ∧ ∀ turn ∈ point.turns, ∀ callback future, turn.Accepts bystander callback future →
        later.machine.session.cells.value? future = point.machine.session.cells.value? future := by
  have underWay : point.Within rest ([.perform op own] ++ ran) later :=
    Within.trans (.work _ [] .here first) within
  have atWork : point.AtWork rest bystander :=
    .inr ⟨[.perform op own], first, by simp [Idles, Task.op?]⟩
  have onOthers : ∀ begun ∈ ([Task.perform op own] ++ ran).filterMap Task.op?,
      begun.client? ≠ some bystander := by
    rw [List.filterMap_append]
    refine List.forall_mem_append.mpr ⟨fun begun member => ?_, spared⟩
    rw [List.mem_singleton.mp member, on]
    exact fun same => apart (Option.some.inj same)
  obtain ⟨-, turns, turns_eq, idle⟩ := underWay.idle keeps atWork onOthers
  have keepsBefore := keeps.of_leads underWay.leads
  obtain ⟨course, led, mirrors⟩ := leads.mirrors keepsBefore
  obtain ⟨next, onward, mirrorsLater⟩ :=
    underWay.leads.mirrors_of (leads.inOrder keepsBefore) mirrors keeps
  have split : next.turns = course.turns ++ turns := by
    rw [mirrorsLater.turns, mirrors.turns, turns_eq]
  have spares := led.spares_bystander fresh onward split idle
  rw [mirrors.turns, mirrors.world, mirrorsLater.world] at spares
  exact spares

end Interference

/-- A session with two clients on transports of their own, of which each numbers from one. -/
def neighbours : Session :=
  { world :=
      { clients := [newcomer "echo" 0, newcomer "time" 1]
        environment := { transports := [{}, {}], tokens := TokenShelf.empty.fresh.2 } }
    shutdown := TokenShelf.empty.fresh.1 }

theorem start_neighbours :
    start [{ service := "echo", transport := 0 }, { service := "time", transport := 1 }] {}
      = .ok neighbours := by
  rfl

/-- A point at which both clients have a request pending under one number, and the response to the second
client's request is about to be delivered to the first client. -/
def misdirected : Point :=
  (((opening neighbours).ask (.submit 1 "what time" none)).next.next.next.ask
    (.submit 0 "ping" (some [.submit 0 "again" none]))).next.next.next.ask
      (.complete 0 (.future (.recorded 0)) "noon")

theorem leads_misdirected : (opening neighbours).Leads misdirected :=
  .ask _ (.next (.next (.next (.ask _ (.next (.next (.next (.ask _ .here rfl)))) rfl)))) rfl

/-- The first client takes the response for its own request, and its callback submits another one. The request
of the second client is still pending, and its future has no value. -/
theorem non_interference_misdirected :
    let later := misdirected.next.next.next.next.next.next.next.next.next.next
    later.machine.session.cells.value? ⟨1, ⟨1⟩⟩ = some "noon"
      ∧ later.machine.session.client? 1 = misdirected.machine.session.client? 1
      ∧ later.machine.session.cells.value? ⟨0, ⟨1⟩⟩ = none := by
  have within : misdirected.next.Within [] _
      misdirected.next.next.next.next.next.next.next.next.next.next :=
    .next (.next (.next (.next (.next (.next (.next (.next (.next .here rfl) rfl) rfl) rfl) rfl)
      rfl) rfl) rfl) rfl
  obtain ⟨untouched, values⟩ := non_interference (isFresh_of_start start_neighbours)
    leads_misdirected rfl rfl (show (0 : ClientId) ≠ 1 by decide) within (by decide) (by decide)
  exact ⟨rfl, untouched, values _ (List.mem_of_getElem? (i := 0) rfl) none ⟨0, ⟨1⟩⟩
    ⟨rfl, rfl, _, rfl⟩⟩

end Point

end Correlator.Session
