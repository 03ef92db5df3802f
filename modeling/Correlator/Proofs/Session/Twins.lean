import Correlator.Proofs.Session.Cancellation
import Correlator.Proofs.Session.Deferral
import Correlator.Proofs.Session.Records

/-!
Contract: runs that are the same except that in one of them a request comes without its callback.

Owns: the relation between their points, that the two differ in nothing but the callback as long as the
request is pending, and that the callback's operations can as well be asked for after the completion.

Does not own: the completion itself (`Correlator.Proofs.Session.Deferral`).
-/

set_option autoImplicit false

namespace Correlator.Session

/-- The task that submits the same request without a callback. -/
def Task.uncalled : Task → Task
  | .advance client (.submit request _) => .advance client (.submit request none)
  | .step client (.submit request _) => .step client (.submit request none)
  | task => task

theorem operation?_uncalled {task : Task} {index : ClientId} {request : Request}
    {callback : Option Program}
    (operation : task.operation? = some (index, .submit request callback)) :
    task.uncalled.operation? = some (index, .submit request none) := by
  cases task with
  | advance | step =>
    cases operation
    rfl
  | _ => cases operation

namespace Point

/-- A point of a run, and the point of the run that is the same except that one accepted request came
without its callback. -/
inductive Twins (start : Point) (index : ClientId) (program : Program) (future : Future) :
    Point → Point → Prop where
  /-- The request is accepted. -/
  | submits {point : Point} {task : Task} {agenda : List Task} {turn : Turn Program}
      {world : World Program} (leads : start.Leads point)
      (first : point.machine.agenda = task :: agenda)
      (operation : task.operation? = some (turn.client, turn.phase))
      (made : point.machine.session.world.step? turn.client turn.phase = some (turn, world))
      (accepts : turn.Accepts index (some program) future) :
      Twins start index program future (point.work task agenda) (point.work task.uncalled agenda)
  /-- The user of both asks for the same. -/
  | ask {point twin : Point} (op : Op) (twins : Twins start index program future point twin)
      (idle : point.machine.agenda = []) (also : twin.machine.agenda = []) :
      Twins start index program future (point.ask op) (twin.ask op)
  /-- Both go on with the same task. -/
  | work {point twin : Point} (task : Task) (agenda : List Task)
      (twins : Twins start index program future point twin)
      (first : point.machine.agenda = task :: agenda)
      (also : twin.machine.agenda = task :: agenda) :
      Twins start index program future (point.work task agenda) (twin.work task agenda)

variable {session : Session} {start point twin : Point} {index : ClientId} {program : Program}
  {future : Future}

theorem Twins.leads (twins : Twins start index program future point twin) : start.Leads point := by
  induction twins with
  | submits leads first => exact leads.work _ _ first
  | ask op twins idle also inductionHypothesis => exact inductionHypothesis.ask op idle
  | work task agenda twins first also inductionHypothesis =>
    exact inductionHypothesis.work task agenda first

/-! ### The two go on alike -/

/-- When a request is accepted, no table has a future on its cell yet. -/
private theorem mute_eq_self_of_accepts {world after : World Program} {turn : Turn Program}
    {request : Request} {callback : Option Program} (resolvable : world.Resolvable)
    (made : world.step? index (.submit request callback) = some (turn, after))
    (accepted : turn.next = .returned (.ok (.submitted future))) :
    future.cell = world.environment.cells.length ∧ world.mute (only future) = world := by
  obtain ⟨client, found, rfl, -⟩ := World.step?_eq_some made
  have cell : future.cell = world.environment.cells.length := by
    have exit := client.exit_step world.environment (.submit request callback)
    generalize client.step world.environment (.submit request callback) = step at exit accepted
    cases exit with
    | stored live room sent read inserted =>
      cases accepted
      rfl
    | pruned live prunes => cases prunes
    | aside isAside client_eq cells_eq effects next => cases isAside
    | _ => cases accepted
  refine ⟨cell, ?_⟩
  have same : world.clients.map (Client.mute (only future)) = world.clients := by
    refine (List.map_congr_left fun known member => ?_).trans (List.map_id' _)
    obtain ⟨other, search⟩ := List.getElem?_of_mem member
    apply Client.mute_eq_self
    intro row inside
    apply decide_eq_false
    rw [cell]
    exact Nat.ne_of_lt (resolvable.unresolved other known search row inside).lt_length
  unfold World.mute
  rw [same]

/-- The turn in which a request without a callback is accepted. -/
private theorem step?_uncalled {world after : World Program} {turn : Turn Program}
    {request : Request} {callback : Option Program} (resolvable : world.Resolvable)
    (made : world.step? index (.submit request callback) = some (turn, after))
    (accepted : turn.next = .returned (.ok (.submitted future))) :
    world.step? index (.submit request none)
      = some ({ turn with phase := .submit request none }, after.mute (only future)) := by
  obtain ⟨cell, unchanged⟩ := mute_eq_self_of_accepts resolvable made accepted
  obtain ⟨client, found, rfl, rfl⟩ := World.step?_eq_some made
  have clients : world.clients.map (Client.mute (only future)) = world.clients :=
    congrArg World.clients unchanged
  have same : client.mute (only future) = client := by
    have search := found
    rw [← clients, List.getElem?_map, found] at search
    exact Option.some.inj search
  have stepped : client.step world.environment (.submit request none)
      = (client.step world.environment (.submit request callback)).mute (only future) := by
    calc client.step world.environment (.submit request none)
      _ = (client.mute (only future)).whileLive world.environment
            ((client.mute (only future)).submit world.environment request none) := by
          rw [same]
          rfl
      _ = _ := Client.whileLive_mute fun _ => Client.submit_mute request fun sequence =>
          (if_pos (decide_eq_true cell.symm)).symm
  rw [World.step?_of_found found, stepped]
  unfold World.mute
  rw [List.map_set, clients]
  rfl

/-- The future of a pending request has no response yet. -/
private theorem holds_of_stands (fresh : session.world.IsFresh)
    (leads : (opening session).Leads point) (keeps : point.KeepsToClients)
    (stands : point.Stands index future .pending) :
    point.machine.session.environment.cells.Holds future none := by
  obtain ⟨callback, known, search, entry, member, own, -⟩ := stands
  have unresolved := (resolvable_of_leads leads keeps fresh).unresolved index known search _ member
  rw [own] at unresolved
  exact unresolved

/-- A task keeps to what the two points have in common, if the request is pending before and after. -/
private theorem heeds_of_stands (fresh : session.world.IsFresh) (leads : (opening session).Leads point)
    {task : Task} {agenda : List Task} (keeps : (point.work task agenda).KeepsToClients)
    (first : point.machine.agenda = task :: agenda) (before : point.Stands index future .pending)
    (after : (point.work task agenda).Stands index future .pending) :
    task.Heeds (only future) point.machine.session := by
  intro acting phase operation client found
  have kept := keeps.of_work.1
  have empty := holds_of_stands fresh leads kept before
  cases phase with
  | submit request callback =>
    intro sequence
    apply decide_eq_false
    exact (Nat.ne_of_lt empty.lt_length).symm
  | complete sequence response =>
    intro live entry search
    apply decide_eq_false
    intro same
    -- The response would be there already.
    have answers := answers_of_live leads kept fresh found live sequence response
    have value := (answers.matched entry search).2.2.2
    have own : entry.future = future := by
      have held := (resolvable_of_leads leads kept fresh).unresolved acting client found _
        (Pending.Table.mem_of_find? search)
      exact held.future_eq empty same
    have made := World.step?_of_found
      (show point.machine.session.world.clients[acting]? = some client from found)
      (.complete sequence response)
    have later : (point.work task agenda).machine.session.environment
        = (client.step point.machine.session.environment
            (.complete sequence response)).environment := by
      rw [work_eq operation (by simp) made]
      exact congrArg Session.environment (Machine.proceed_session ..)
    have unresolved := (holds_of_stands fresh (leads.work task agenda first) keeps after).value?_eq
    rw [later, ← own, value] at unresolved
    cases unresolved
  | _ => trivial

/-- The request was accepted with its callback. -/
private theorem Twins.accepted (twins : Twins start index program future point twin) :
    ∃ turn ∈ point.turns, turn.Accepts index (some program) future := by
  induction twins with
  | @submits point task agenda turn world leads first operation made accepts =>
    obtain ⟨request, phase⟩ := accepts.2.2
    refine ⟨turn, ?_, accepts⟩
    rw [work_eq operation (by simp [phase]) made, turns_after]
    exact List.mem_append_right _ (List.mem_singleton.mpr rfl)
  | ask op twins idle also inductionHypothesis => exact inductionHypothesis
  | @work point twin task agenda twins first also inductionHypothesis =>
    obtain ⟨turn, member, accepts⟩ := inductionHypothesis
    refine ⟨turn, ?_, accepts⟩
    show turn ∈ (point.after task _).turns
    rw [turns_after]
    exact List.mem_append_left _ member

/-- The two points right after the request is accepted. -/
private theorem alike_of_accepts (leads : (opening session).Leads point)
    (resolvable : point.machine.session.world.Resolvable) {task : Task} {agenda : List Task}
    (first : point.machine.agenda = task :: agenda) {turn : Turn Program} {world : World Program}
    (operation : task.operation? = some (turn.client, turn.phase))
    (made : point.machine.session.world.step? turn.client turn.phase = some (turn, world))
    (accepts : turn.Accepts index (some program) future) :
    Machine.Alike (only future) [] [] (point.work task agenda).machine
        (point.work task.uncalled agenda).machine
      ∨ Machine.Broken (only future) [] (point.work task agenda).machine
        (point.work task.uncalled agenda).machine := by
  obtain ⟨rfl, accepted, request, phase⟩ := accepts
  rw [phase] at operation made
  obtain ⟨-, unchanged⟩ := mute_eq_self_of_accepts resolvable made accepted
  have beside : Machine.Beside (only future) [] [] { point.machine with agenda }
      { point.machine with agenda } := by
    rcases leads.alike_self with alike | broken
    · have popped := alike.pop first (by cases task <;> first | rfl | cases operation)
      refine ⟨?_, rfl, (List.append_nil _).symm, List.nil_prefix, popped.waits, popped.unbroken,
        popped.whole⟩
      exact congrArg (fun world => { point.machine.session with world }) unchanged.symm
    · rw [broken.agenda] at first
      cases first
  rw [work_eq operation (by simp) made,
    work_eq (operation?_uncalled operation) (by simp) (step?_uncalled resolvable made accepted)]
  exact (Machine.Together.proceed beside world turn []).machines

/-- A request that is pending after a task was pending before, if it had been accepted. -/
private theorem stands_of_work (fresh : session.world.IsFresh)
    (leads : (opening session).Leads point)
    (accepted : ∃ turn ∈ point.turns, turn.Accepts index (some program) future) {task : Task}
    {agenda : List Task} (first : point.machine.agenda = task :: agenda)
    (keeps : (point.work task agenda).KeepsToClients)
    (stands : (point.work task agenda).Stands index future .pending) :
    point.Stands index future .pending := by
  by_contra gone
  obtain ⟨turn, member, accepts⟩ := accepted
  exact not_pending_again leads fresh member accepts gone (.work task agenda .here first) keeps stands

/-- As long as the request is pending, its callback is all in which the two points differ. -/
private theorem Twins.alike (fresh : session.world.IsFresh)
    (twins : Twins (opening session) index program future point twin) (keeps : point.KeepsToClients)
    (stands : point.Stands index future .pending) :
    Machine.Alike (only future) [] [] point.machine twin.machine
      ∨ Machine.Broken (only future) [] point.machine twin.machine := by
  induction twins with
  | submits leads first operation made accepts =>
    have resolvable := resolvable_of_leads leads keeps.of_work.1 fresh
    exact alike_of_accepts leads resolvable first operation made accepts
  | @ask point twin op twins idle also inductionHypothesis =>
    have session_eq : twin.machine.session = point.machine.session.mute (only future) := by
      rcases inductionHypothesis keeps stands with alike | broken
      · exact alike.session
      · rw [broken.right_eq]
    exact .inl ⟨⟨session_eq, rfl, rfl, List.nil_prefix, rfl, rfl, rfl⟩, .inr rfl⟩
  | @work point twin task agenda twins first also inductionHypothesis =>
    have before := stands_of_work fresh twins.leads twins.accepted first keeps stands
    rcases inductionHypothesis keeps.of_work.1 before with alike | broken
    · have together := alike.carryOut first
        (heeds_of_stands fresh twins.leads keeps first before stands)
      rw [List.append_nil] at together
      exact together.machines
    · rw [broken.agenda] at first
      cases first

/-- As long as the request is pending, the twin has the same session but for the callback, and the same
to do. -/
theorem Twins.machine_eq (fresh : session.world.IsFresh)
    (twins : Twins (opening session) index program future point twin) (keeps : point.KeepsToClients)
    (stands : point.Stands index future .pending) :
    twin.machine.session = point.machine.session.mute (only future)
      ∧ twin.machine.agenda = point.machine.agenda := by
  rcases twins.alike fresh keeps stands with alike | broken
  · exact ⟨alike.session, alike.agenda.trans (List.append_nil _)⟩
  · rw [broken.right_eq]
    exact ⟨rfl, rfl⟩

/-- A point with twins leads to points with twins, as long as the request is pending. -/
private theorem Twins.onward (fresh : session.world.IsFresh)
    (twins : Twins (opening session) index program future start twin) (leads : start.Leads point)
    (keeps : point.KeepsToClients) (stands : point.Stands index future .pending) :
    ∃ twin, Twins (opening session) index program future point twin := by
  induction leads with
  | here => exact ⟨twin, twins⟩
  | ask op leads idle inductionHypothesis =>
    obtain ⟨other, others⟩ := inductionHypothesis keeps stands
    exact ⟨_, others.ask op idle ((others.machine_eq fresh keeps stands).2.trans idle)⟩
  | @work point task agenda leads first inductionHypothesis =>
    have kept := keeps.of_work.1
    have accepted : ∃ turn ∈ point.turns, turn.Accepts index (some program) future := by
      obtain ⟨turn, member, accepts⟩ := twins.accepted
      obtain ⟨more, turns_eq⟩ := leads.turns_eq_append
      exact ⟨turn, turns_eq ▸ List.mem_append_left more member, accepts⟩
    have before := stands_of_work fresh (twins.leads.trans leads) accepted first keeps stands
    obtain ⟨other, others⟩ := inductionHypothesis kept before
    exact ⟨_, others.work task agenda first ((others.machine_eq fresh kept before).2.trans first)⟩

private theorem Leads.of_first (leads : start.Leads point) {task : Task} {agenda : List Task}
    (first : start.machine.agenda = task :: agenda) :
    point = start ∨ (start.work task agenda).Leads point := by
  induction leads with
  | here => exact .inl rfl
  | ask op leads idle inductionHypothesis =>
    rcases inductionHypothesis with rfl | onward
    · rw [idle] at first
      cases first
    · exact .inr (onward.ask op idle)
  | work later rest leads next inductionHypothesis =>
    rcases inductionHypothesis with rfl | onward
    · rw [first] at next
      cases next
      exact .inr .here
    · exact .inr (onward.work later rest next)

/-- Every point at which a request with a callback is pending has a twin. -/
theorem exists_twin (fresh : session.world.IsFresh) (leads : (opening session).Leads point)
    (keeps : point.KeepsToClients)
    (tracked : point.machine.session.world.Tracks index future (some program)) :
    ∃ twin, Twins (opening session) index program future point twin := by
  obtain ⟨turn, member, accepts⟩ := accepted_of_tracks leads keeps fresh tracked
  obtain ⟨earlier, world, before, onward, operation, made⟩ := leads.turn_made keeps member
  obtain ⟨task, agenda, first, operation⟩ : ∃ task agenda,
      earlier.machine.agenda = task :: agenda
        ∧ task.operation? = some (turn.client, turn.phase) := by
    unfold operation? at operation
    cases first : earlier.machine.agenda with
    | nil =>
      rw [first] at operation
      cases operation
    | cons task agenda =>
      rw [first] at operation
      exact ⟨task, agenda, rfl, operation⟩
  have stands : point.Stands index future .pending := ⟨_, tracked⟩
  rcases onward.of_first first with rfl | later
  · -- Nothing has the cell of the request before it is accepted.
    obtain ⟨-, accepted, request, phase⟩ := accepts
    rw [phase] at made
    have resolvable := resolvable_of_leads leads keeps fresh
    obtain ⟨cell, -⟩ := mute_eq_self_of_accepts resolvable made accepted
    have holds := holds_of_stands fresh leads keeps stands
    exact absurd cell (Nat.ne_of_lt holds.lt_length)
  · exact (Twins.submits before first operation made accepts).onward fresh later keeps stands

/-! ### The callback's operations, asked for after the completion -/

/-- In a session and in the one without the callback, the completion of a request comes to the same, if in
the latter the user then asks for the callback's operations; as long as nothing breaks off. -/
structure Defers (session twin : Session) (index : ClientId) (program : Program)
    (sequence : Sequence) (position : Nat) (target : Target) (response : Response) : Prop where
  unfolds : ∀ report, session.Performs (.complete index target response) report →
    report.reply.isBroken = false →
      ∃ first reports, twin.Performs (.complete index target response) first
        ∧ first.session.PerformsAll (program.map (Op.located position)) reports report.session
        ∧ (∀ later ∈ reports, later.reply.isBroken = false)
        ∧ Unfolds program sequence response report first reports
  folds : ∀ first reports final, twin.Performs (.complete index target response) first →
    first.session.PerformsAll (program.map (Op.located position)) reports final →
      (∀ later ∈ reports, later.reply.isBroken = false) →
        ∃ report, session.Performs (.complete index target response) report
          ∧ report.session = final ∧ Unfolds program sequence response report first reports

/-- Operations in a callback are operations after the completion. At every point of a run, let a request
with a callback be pending with a client in use. There is a run that is the same except that the request
was submitted without its callback. Whatever response comes, and whatever operations the callback's program
has: unless something breaks off, the completion is answered with success and leaves behind what the other
run has when its user asks for these operations after the completion, with the same replies and the same
reports in the same order. -/
theorem deferral {client : Client Program} {sequence : Sequence} {entry : Pending.Entry Program}
    (fresh : session.world.IsFresh) (leads : (opening session).Leads point)
    (keeps : point.KeepsToClients) (found : point.machine.session.client? index = some client)
    (live : client.disposed = false) (pending : client.table.find? sequence = some entry)
    (called : entry.callback = some program) :
    -- Between two operations the user has the future, by which he can mean what is the callback's own.
    (point.machine.agenda = [] →
      ∃ position : Nat, point.machine.session.futures[position]? = some entry.future)
    ∧ (∃ twin, Twins (opening session) index program entry.future point twin)
    ∧ ∀ twin, Twins (opening session) index program entry.future point twin →
      ∀ position : Nat, point.machine.session.futures[position]? = some entry.future →
        ∀ target, point.machine.session.number? target = some sequence → ∀ response,
          Defers point.machine.session twin.machine.session index program sequence position target
            response := by
  have resolvable := resolvable_of_leads leads keeps fresh
  have tracked : point.machine.session.world.Tracks index entry.future (some program) :=
    ⟨client, found, called ▸ (resolvable.filed index client found).tracks_of_find? pending⟩
  refine ⟨?_, exists_twin fresh leads keeps tracked, ?_⟩
  · intro idle
    obtain ⟨turn, member, accepts⟩ := accepted_of_tracks leads keeps fresh tracked
    rcases recorded_of_accepts leads keeps member accepts with known | ⟨next, -⟩
    · exact List.getElem?_of_mem known
    · rw [idle] at next
      cases next
  · intro twin twins position held target known response
    rw [(twins.machine_eq fresh keeps ⟨_, tracked⟩).1]
    constructor
    case unfolds =>
      intro report performs whole
      exact unfolds_of_performs resolvable found pending live called held known performs whole
    case folds =>
      intro first reports final performs later whole
      exact performs_of_unfolded resolvable found pending live called held known performs later whole

/-- A point after a request whose callback submits another one and looks at its own future. -/
def entrusted : Point :=
  ((opening solo).ask (.submit 0 "ping" (some [.submit 0 "again" none, .get .own]))).next.next.next

theorem leads_entrusted : (opening solo).Leads entrusted :=
  .next (.next (.next (.ask _ .here rfl)))

/-- There the user of another run, who left the callback out, can ask for its operations after the
completion. -/
theorem deferral_entrusted :
    ∃ twin report first reports,
      Twins (opening solo) 0 [.submit 0 "again" none, .get .own] ⟨0, ⟨1⟩⟩ entrusted twin
      ∧ twin.machine.session
        = ((opening solo).ask (.submit 0 "ping" none)).next.next.next.machine.session
      ∧ entrusted.machine.session.Performs (.complete 0 (.number ⟨1⟩) "pong") report
      ∧ twin.machine.session.Performs (.complete 0 (.number ⟨1⟩) "pong") first
      ∧ first.session.PerformsAll [.submit 0 "again" none, .get (.recorded 0)] reports report.session
      ∧ Unfolds [.submit 0 "again" none, .get .own] ⟨1⟩ "pong" report first reports := by
  obtain ⟨client, found⟩ : ∃ client, entrusted.machine.session.client? 0 = some client := ⟨_, rfl⟩
  obtain ⟨entry, pending⟩ : ∃ entry, client.table.find? ⟨1⟩ = some entry := by
    cases found
    exact ⟨_, rfl⟩
  obtain ⟨future, called⟩ : entry.future = ⟨0, ⟨1⟩⟩
      ∧ entry.callback = some [.submit 0 "again" none, .get .own] := by
    cases found
    cases pending
    exact ⟨rfl, rfl⟩
  obtain ⟨-, ⟨twin, twins⟩, defers⟩ := deferral solo_isFresh leads_entrusted (by decide) found
    (by cases found; rfl) pending called
  obtain ⟨report, performs, whole⟩ : ∃ report,
      entrusted.machine.session.Performs (.complete 0 (.number ⟨1⟩) "pong") report
        ∧ report.reply.isBroken = false := ⟨_, ⟨20, rfl⟩, rfl⟩
  obtain ⟨first, reports, completes, later, -, unfolds⟩ :=
    (defers twin twins 0 (by rw [future]; rfl) _ rfl "pong").unfolds report performs whole
  rw [future] at twins
  have stands : entrusted.Stands 0 ⟨0, ⟨1⟩⟩ .pending := by
    apply (tracks_iff_stands found _).mp
    rw [← future]
    exact ⟨_, (filed_of_leads leads_entrusted (by decide) solo_isFresh found).tracks_of_find? pending⟩
  have session_eq := (twins.machine_eq solo_isFresh (by decide) stands).1
  exact ⟨twin, report, first, reports, twins, session_eq, performs, completes, later, unfolds⟩

/-- A point at which a request with a callback is pending with a client that was disposed of. -/
def bereft : Point :=
  (((opening solo).ask (.submit 0 "first" (some [.pendingCount 0]))).next.next.next.ask
    (.dispose 0)).next.next.next.next

theorem leads_bereft : (opening solo).Leads bereft :=
  .next (.next (.next (.next (.ask _ (.next (.next (.next (.ask _ .here rfl)))) rfl))))

/-- A client that was disposed of completes nothing, so nothing follows there: the completion is refused,
whatever other run it is compared with. -/
theorem not_defers_bereft :
    (opening solo).Leads bereft ∧ bereft.KeepsToClients ∧ bereft.machine.agenda = []
    ∧ (∃ client entry, bereft.machine.session.client? 0 = some client
      ∧ client.table.find? ⟨1⟩ = some entry ∧ entry.callback = some [.pendingCount 0])
    ∧ (∃ report, bereft.machine.session.Performs (.complete 0 (.number ⟨1⟩) "done") report
      ∧ report.reply = .answered (.error (.invalidHandle "echo")))
    ∧ ∀ twin position, ¬ Defers bereft.machine.session twin 0 [.pendingCount 0] ⟨1⟩ position
        (.number ⟨1⟩) "done" := by
  have refused : ∃ report, bereft.machine.session.Performs (.complete 0 (.number ⟨1⟩) "done") report
      ∧ report.reply = .answered (.error (.invalidHandle "echo")) := ⟨_, ⟨10, rfl⟩, rfl⟩
  refine ⟨leads_bereft, by decide, rfl, ⟨_, _, rfl, rfl, rfl⟩, refused, ?_⟩
  intro twin position defers
  obtain ⟨report, performs, reply⟩ := refused
  obtain ⟨first, reports, -, -, -, unfolds⟩ := defers.unfolds report performs (by rw [reply]; rfl)
  rw [unfolds.answers.1] at reply
  cases reply

end Point

end Correlator.Session
