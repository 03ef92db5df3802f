import Correlator.Proofs.Session.Run

/-!
Contract: how a session gets from one operation to the next.

Owns: sequences of tasks without a bound on their number, that such a sequence is what the running of an
operation comes to if its budget suffices, the points that it comes to, and operations that follow each
other.

Does not own: the points between two tasks (`Correlator.Proofs.Session.Run`).
-/

set_option autoImplicit false

namespace Correlator.Session

namespace Machine

/-- A machine does tasks, one after the other, and comes to another one, with a trail. -/
inductive Runs : Machine → Trail → Machine → Prop where
  | here (machine : Machine) : Runs machine [] machine
  | task {machine next finish : Machine} {occurrences trail : Trail}
      (first : machine.advance? = some (occurrences, next)) (rest : Runs next trail finish) :
      Runs machine (occurrences ++ trail) finish

/-- A machine does tasks until none is left. -/
def Finishes (machine : Machine) (trail : Trail) (finish : Machine) : Prop :=
  machine.Runs trail finish ∧ finish.agenda = []

variable {machine next middle finish : Machine} {occurrences trail more : Trail}

theorem advance?_eq_none : machine.advance? = none ↔ machine.agenda = [] := by
  unfold advance?
  cases machine.agenda <;> simp

theorem advance?_of_agenda {task : Task} {agenda : List Task}
    (first : machine.agenda = task :: agenda) :
    machine.advance? = some ({ machine with agenda }.carryOut task) := by
  unfold advance?
  rw [first]

theorem Runs.trans (first : machine.Runs trail middle) (second : middle.Runs more finish) :
    machine.Runs (trail ++ more) finish := by
  induction first with
  | here => exact second
  | task first rest inductionHypothesis =>
    rw [List.append_assoc]
    exact .task first (inductionHypothesis second)

/-- A task and what follows it. -/
theorem Runs.of_carryOut {task : Task} {agenda : List Task}
    (first : machine.agenda = task :: agenda)
    (carried : { machine with agenda }.carryOut task = (occurrences, next))
    (rest : next.Runs trail finish) : machine.Runs (occurrences ++ trail) finish :=
  .task (by rw [advance?_of_agenda first, carried]) rest

theorem Runs.of_agenda_eq_nil (runs : machine.Runs trail finish) (idle : machine.agenda = []) :
    trail = [] ∧ finish = machine := by
  cases runs with
  | here => exact ⟨rfl, rfl⟩
  | task first rest =>
    rw [advance?_eq_none.mpr idle] at first
    cases first

/-- Where two machines do the same first, they come to the same. -/
theorem Runs.of_advance?_eq {other : Machine} (runs : machine.Runs trail finish)
    (moves : machine ≠ finish) (same : other.advance? = machine.advance?) :
    other.Runs trail finish := by
  cases runs with
  | here => exact absurd rfl moves
  | task first rest => exact .task (same.trans first) rest

/-- A run that comes to its end goes on from each of its tasks. -/
theorem Finishes.rest (finishes : machine.Finishes trail finish)
    (first : machine.advance? = some (occurrences, next)) :
    ∃ later, trail = occurrences ++ later ∧ next.Finishes later finish := by
  obtain ⟨runs, idle⟩ := finishes
  cases runs with
  | here =>
    rw [advance?_eq_none.mpr idle] at first
    cases first
  | task known rest =>
    rw [known] at first
    cases first
    exact ⟨_, rfl, rest, idle⟩

/-- There is one end to which a machine comes, and one way. -/
theorem Finishes.unique (left : machine.Finishes trail finish)
    (right : machine.Finishes more middle) : trail = more ∧ finish = middle := by
  obtain ⟨runs, idle⟩ := left
  induction runs generalizing more with
  | here =>
    obtain ⟨rfl, rfl⟩ := right.1.of_agenda_eq_nil idle
    exact ⟨rfl, rfl⟩
  | task first rest inductionHypothesis =>
    obtain ⟨later, rfl, onward⟩ := right.rest first
    obtain ⟨rfl, same⟩ := inductionHypothesis onward idle
    exact ⟨rfl, same⟩

/-- A run that is part of a longer one. -/
theorem Finishes.after (finishes : machine.Finishes more finish) (runs : machine.Runs trail middle) :
    ∃ later, more = trail ++ later ∧ middle.Finishes later finish := by
  induction runs generalizing more with
  | here => exact ⟨more, rfl, finishes⟩
  | task first rest inductionHypothesis =>
    obtain ⟨later, rfl, onward⟩ := finishes.rest first
    obtain ⟨last, rfl, ends⟩ := inductionHypothesis onward
    exact ⟨last, (List.append_assoc ..).symm, ends⟩

theorem finishes_of_run {budget : Nat} {recent : Trail}
    (ran : run budget recent machine = some (trail, finish)) :
    ∃ later, trail = recent.reverse ++ later ∧ machine.Finishes later finish := by
  induction budget generalizing recent machine with
  | zero => cases ran
  | succ budget inductionHypothesis =>
    unfold run at ran
    cases first : machine.advance? with
    | none =>
      rw [first] at ran
      cases ran
      exact ⟨[], (List.append_nil _).symm, .here _, advance?_eq_none.mp first⟩
    | some result =>
      obtain ⟨occurrences, next⟩ := result
      rw [first] at ran
      obtain ⟨later, rfl, runs, idle⟩ := inductionHypothesis ran
      refine ⟨occurrences ++ later, ?_, .task first runs, idle⟩
      rw [List.reverse_append, List.reverse_reverse, List.append_assoc]

theorem run_of_finishes (finishes : machine.Finishes trail finish) (recent : Trail) :
    ∃ budget, run budget recent machine = some (recent.reverse ++ trail, finish) := by
  obtain ⟨runs, idle⟩ := finishes
  induction runs generalizing recent with
  | here machine =>
    refine ⟨1, ?_⟩
    unfold run
    rw [advance?_eq_none.mpr idle, List.append_nil]
  | @task machine next finish occurrences trail first rest inductionHypothesis =>
    obtain ⟨budget, ran⟩ := inductionHypothesis (occurrences.reverse ++ recent) idle
    refine ⟨budget + 1, ?_⟩
    unfold run
    rw [first]
    dsimp only
    rw [ran, List.reverse_append, List.reverse_reverse, List.append_assoc]

end Machine

/-! ### Operations -/

/-- An operation comes to its end with a report, if it may take as many tasks as it needs. -/
def Performs (session : Session) (op : Op) (report : Report) : Prop :=
  ∃ budget, (Machine.run budget [] { session, agenda := [.perform op none] }).map
    (fun result => (⟨result.2.reply, result.1, result.2.session⟩ : Report)) = some report

/-- Operations follow each other, each with its report. -/
inductive PerformsAll : Session → List Op → List Report → Session → Prop where
  | nil (session : Session) : PerformsAll session [] [] session
  | cons {session last : Session} {op : Op} {ops : List Op} {report : Report}
      {reports : List Report} (first : session.Performs op report)
      (rest : PerformsAll report.session ops reports last) :
      PerformsAll session (op :: ops) (report :: reports) last

variable {session : Session} {op : Op} {report : Report}

theorem performs_iff : session.Performs op report ↔
    ∃ finish, Machine.Finishes { session, agenda := [.perform op none] } report.trail finish
      ∧ finish.reply = report.reply ∧ finish.session = report.session := by
  constructor
  · rintro ⟨budget, performed⟩
    obtain ⟨⟨trail, finish⟩, ran, rfl⟩ := Option.map_eq_some_iff.mp performed
    obtain ⟨later, rfl, finishes⟩ := Machine.finishes_of_run ran
    exact ⟨finish, finishes, rfl, rfl⟩
  · rintro ⟨finish, finishes, reply, last⟩
    obtain ⟨budget, ran⟩ := Machine.run_of_finishes finishes []
    refine ⟨budget, ?_⟩
    rw [ran, Option.map_some, List.reverse_nil, List.nil_append, reply, last]

/-- An operation has one report at most. -/
theorem Performs.unique {other : Report} (left : session.Performs op report)
    (right : session.Performs op other) : report = other := by
  obtain ⟨finish, finishes, reply, last⟩ := performs_iff.mp left
  obtain ⟨final, ends, otherReply, otherLast⟩ := performs_iff.mp right
  obtain ⟨same, rfl⟩ := finishes.unique ends
  cases report
  cases other
  simp_all

theorem PerformsAll.length_eq {ops : List Op} {reports : List Report} {last : Session}
    (performs : session.PerformsAll ops reports last) : ops.length = reports.length := by
  induction performs with
  | nil => rfl
  | cons first rest inductionHypothesis => exact congrArg (· + 1) inductionHypothesis

namespace Point

/-- The tasks that a machine does come to points of a run. -/
theorem Leads.runs {start point : Point} (leads : start.Leads point) {trail : Trail}
    {finish : Machine} (runs : point.machine.Runs trail finish) :
    ∃ done, start.Leads ⟨finish, point.done ++ done, point.trail ++ trail⟩ := by
  generalize machine_eq : point.machine = machine at runs
  induction runs generalizing point with
  | here machine =>
    subst machine_eq
    refine ⟨[], ?_⟩
    simpa using leads
  | @task machine next finish occurrences trail first rest inductionHypothesis =>
    subst machine_eq
    cases agenda_eq : point.machine.agenda with
    | nil =>
      rw [Machine.advance?_eq_none.mpr agenda_eq] at first
      cases first
    | cons task agenda =>
      rw [Machine.advance?_of_agenda agenda_eq] at first
      have worked := leads.work task agenda agenda_eq
      unfold Point.work at worked
      rw [Option.some.inj first] at worked
      obtain ⟨done, led⟩ := inductionHypothesis worked rfl
      refine ⟨[task] ++ done, ?_⟩
      rw [← List.append_assoc, ← List.append_assoc]
      exact led

/-- An operation that comes to its end comes to a point with its report. -/
theorem Leads.performs {start point : Point} (leads : start.Leads point)
    (idle : point.machine.agenda = []) {op : Op} {report : Report}
    (performs : point.machine.session.Performs op report) :
    ∃ finish, start.Leads finish ∧ finish.machine.agenda = []
      ∧ finish.machine.session = report.session ∧ finish.machine.reply = report.reply
      ∧ finish.trail = point.trail ++ report.trail := by
  obtain ⟨finish, ⟨runs, finished⟩, reply, last⟩ := performs_iff.mp performs
  obtain ⟨done, led⟩ := (leads.ask op idle).runs runs
  exact ⟨_, led, finished, last, reply, rfl⟩

end Point

end Correlator.Session
