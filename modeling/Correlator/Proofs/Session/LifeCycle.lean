import Correlator.Proofs.Session.Run

/-!
Contract: the life of a request in the runs of a session.

Owns: where a request can stand, what its future and its callback are entitled to at each point, and
that every accepted request gets just that.

Does not own: the stages of a request along a course (`Correlator.Proofs.Course.Request`).
-/

set_option autoImplicit false

namespace Correlator

variable {κ : Type}

namespace Client

variable {client : Client κ} {environment : Environment} {phase : Phase κ} {step : Step κ}

/-- Only a complete takes out an entry as completed, and it is the entry under its number. -/
theorem Exit.find?_of_completed (exit : client.Exit environment phase step) {future : Future}
    (removed : Effect.removed future .completed ∈ step.effects) :
    ∃ sequence response entry, phase = .complete sequence response
      ∧ client.table.find? sequence = some entry ∧ entry.future = future := by
  cases exit with
  | @lost sequence response entry error live found refused =>
    refine ⟨sequence, response, entry, rfl, found, ?_⟩
    simpa [eq_comm] using removed
  | @matched sequence response entry wakers cells live found filled =>
    refine ⟨sequence, response, entry, rfl, found, ?_⟩
    simpa [eq_comm] using removed
  | aside isAside client_eq cells_eq effects next => cases effects _ removed
  | _ => simp at removed

/-- A complete is matched if its number is pending, and unmatched if not; in either case with all that
belongs to it, and nothing else. -/
structure Answers (client : Client κ) (environment : Environment) (sequence : Sequence)
    (response : Response) (step : Step κ) : Prop where
  matched : ∀ entry, client.table.find? sequence = some entry →
    step.next = .goesOn (.countCompleted ⟨entry.future, entry.callback⟩)
      ∧ step.client = { client with table := client.table.erase sequence }
      ∧ step.environment = { environment with cells := step.environment.cells }
      ∧ step.environment.cells.value? entry.future = some response
  unmatched : client.table.contains sequence = false →
    step.next = .returned (.error (.unmatchedResponse client.service sequence))
      ∧ step.client = client.count .unmatched 1 ∧ step.environment = environment

theorem Exit.answers {sequence : Sequence} {response : Response}
    (exit : client.Exit environment (.complete sequence response) step)
    (live : client.disposed = false)
    (resolves : ∀ entry, client.table.find? sequence = some entry →
      ∃ filled, environment.cells.resolve entry.future response
          = .ok ((environment.cells.cell entry.future).wakers, filled)
        ∧ filled.Holds entry.future (some response)
        ∧ ∀ other held, other ≠ entry.future → environment.cells.Holds other held →
          filled.Holds other held) :
    client.Answers environment sequence response step := by
  cases exit with
  | gone disposed begins =>
    rw [live] at disposed
    cases disposed
  | unmatched live absent =>
    refine ⟨fun entry stored => ?_, fun _ => ⟨rfl, rfl, rfl⟩⟩
    rw [Pending.Table.contains_of_find? stored] at absent
    cases absent
  | lost live stored refused =>
    obtain ⟨filled, fills, -⟩ := resolves _ stored
    rw [fills] at refused
    cases refused
  | matched live stored resolved =>
    constructor
    · intro entry search
      rw [stored] at search
      cases search
      obtain ⟨filled, fills, holds, -⟩ := resolves _ stored
      rw [fills] at resolved
      cases resolved
      exact ⟨rfl, rfl, rfl, holds.value?_eq⟩
    · intro absent
      rw [Pending.Table.contains_of_find? stored] at absent
      cases absent
  | pruned live prunes => cases prunes
  | aside isAside client_eq cells_eq effects next => cases isAside

end Client

namespace Session

/-- Where an accepted request stands: it is pending, or its entry left the table in one way. -/
inductive Standing where
  | pending
  | left (removal : Removal)
deriving DecidableEq, Repr

/-- The next task is in the middle of a complete. This is so neither between two operations nor inside
a callback. -/
def Machine.isSettling (machine : Machine) : Bool := machine.agenda.head?.any Task.isUrgent

namespace Point

/-- How a request left the tables so far, with the clients whose tables they were. -/
def departures (point : Point) (future : Future) : List (ClientId × Removal) :=
  point.turns.flatMap fun turn => turn.departures future

/-- The completes that took out a request so far. -/
def completions (point : Point) (future : Future) : List (ClientId × Sequence × Response) :=
  point.turns.flatMap fun turn => turn.completions future

/-- The callbacks that ran with a future so far. -/
def callsOf (point : Point) (future : Future) : List Program :=
  (point.calls.filter (·.1 = future)).map (·.2)

/-- Where a request stands with a client, by the client's table and the turns so far. -/
def Stands (point : Point) (client : ClientId) (future : Future) : Standing → Prop
  | .pending => ∃ callback, point.machine.session.world.Tracks client future callback
  | .left removal => (client, removal) ∈ point.departures future

/-- What an accepted request is entitled to at a point of a run. -/
structure LifeCycle (start point : Point) (client : ClientId) (callback : Option Program)
    (future : Future) : Prop where
  /-- It is pending, or it was completed, cancelled or pruned, and only one of them. -/
  one : ∃! standing, point.Stands client future standing
  /-- It left a table once at most. -/
  once : (point.departures future).length ≤ 1
  /-- Once it is not pending, it never is again. -/
  never : ¬ point.Stands client future .pending → ∀ later, point.Leads later →
    later.KeepsToClients → ¬ later.Stands client future .pending
  /-- Its future is done if it was completed, and only then. -/
  done : point.machine.session.cells.isDone future = true
    ↔ point.Stands client future (.left .completed)
  /-- Then the future holds the response of the only complete that took it out, by its own client,
  which found it pending under the number of that complete. -/
  response : point.Stands client future (.left .completed) →
    ∃ value earlier, point.machine.session.cells.value? future = some value
      ∧ point.completions future = [(client, future.sequence, value)]
      ∧ start.Leads earlier ∧ earlier.Leads point
      ∧ earlier.operation? = some (client, .complete future.sequence value)
      ∧ earlier.Stands client future .pending
  /-- Its callback has run if it was completed, and only then; a complete in the middle may have
  yet to come to it. -/
  called : point.machine.isSettling = false →
    point.callsOf future
      = if point.machine.session.cells.isDone future then callback.toList else []
  /-- No callback but its own ever runs with its future, only after completion, and at most once. -/
  spared : point.callsOf future = []
    ∨ (point.machine.session.cells.isDone future = true ∧ point.callsOf future = callback.toList)
  /-- When the callback is about to run, the future is done already. -/
  ready : ∀ program, point.machine.agenda.head? = some (.callBack future program) →
    callback = some program ∧ point.machine.session.cells.isDone future = true
  /-- If its client was disposed of meanwhile, it is pending for good, and its callback never runs. -/
  orphaned : ∀ disposed, point.machine.session.client? client = some disposed →
    disposed.disposed = true → point.Stands client future .pending → ∀ later, point.Leads later →
      later.KeepsToClients → later.Stands client future .pending ∧ later.callsOf future = []

/-! ### From stages to standings -/

section Stages

variable {session : Session} {point : Point} {course : Course Program} {client : ClientId}
  {callback : Option Program} {future : Future} {stage : Stage Program}

theorem Leads.stage_of_accepts (leads : (opening session).Leads point)
    (keeps : point.KeepsToClients) (fresh : session.world.IsFresh) {turn : Turn Program}
    (member : turn ∈ point.turns) (accepts : turn.Accepts client callback future) :
    ∃ course stage, (Course.opening session.world).Leads course ∧ Mirrors point course
      ∧ course.AtStage future stage ∧ (client, .submitted callback) ∈ stage.life := by
  obtain ⟨course, led, mirrors⟩ := leads.mirrors keeps
  obtain ⟨stage, atStage, submitted⟩ :=
    (led.sound fresh).of_accepts (mirrors.turns ▸ member) accepts
  exact ⟨course, stage, led, mirrors, atStage, submitted⟩

theorem departures_eq (mirrors : Mirrors point course) (atStage : course.AtStage future stage) :
    point.departures future = stage.departure?.toList := by
  unfold departures
  rw [← mirrors.turns, Course.departures_eq, atStage.life, stage.select_removal]

theorem completions_eq (mirrors : Mirrors point course) (atStage : course.AtStage future stage)
    (led : (Course.opening session.world).Leads course) (fresh : session.world.IsFresh) :
    point.completions future = stage.resolution?.toList.map
      fun resolution => (resolution.1, future.sequence, resolution.2) := by
  unfold completions
  rw [← mirrors.turns, led.completions_eq fresh, atStage.life, stage.select_value]

theorem callsOf_append (mirrors : Mirrors point course) (atStage : course.AtStage future stage)
    (inOrder : point.InOrder) :
    point.callsOf future
        ++ ((point.machine.agenda.filterMap Task.call?).filter (·.1 = future)).map (·.2)
      = stage.handover?.toList.map (·.2) := by
  rw [← stage.select_callback, ← atStage.life, ← Course.handovers_eq, mirrors.turns, inOrder.calls,
    List.filter_append, List.map_append]
  rfl

theorem stands_pending_iff (mirrors : Mirrors point course)
    (atStage : course.AtStage future stage) :
    point.Stands client future .pending ↔ ∃ callback, stage = .pending client callback := by
  unfold Stands
  rw [← mirrors.world]
  exact exists_congr fun callback => atStage.tracks client callback

theorem stands_left_iff (mirrors : Mirrors point course) (atStage : course.AtStage future stage)
    (removal : Removal) :
    point.Stands client future (.left removal) ↔ stage.departure? = some (client, removal) := by
  change (client, removal) ∈ point.departures future ↔ _
  rw [departures_eq mirrors atStage, Option.mem_toList]

theorem stands_unique (mirrors : Mirrors point course) (atStage : course.AtStage future stage)
    (submitted : (client, .submitted callback) ∈ stage.life) :
    ∃! standing, point.Stands client future standing := by
  rcases Stage.of_submitted submitted with rfl | ⟨value, rfl⟩ | ⟨value, rfl⟩ | rfl | rfl
  · refine ⟨.pending, (stands_pending_iff mirrors atStage).mpr ⟨callback, rfl⟩, ?_⟩
    intro other stands
    cases other with
    | pending => rfl
    | left removal => cases (stands_left_iff mirrors atStage removal).mp stands
  all_goals
    refine ⟨_, (stands_left_iff mirrors atStage _).mpr rfl, ?_⟩
    intro other stands
    cases other with
    | pending =>
      obtain ⟨known, impossible⟩ := (stands_pending_iff mirrors atStage).mp stands
      cases impossible
    | left removal =>
      cases (stands_left_iff mirrors atStage removal).mp stands
      rfl

theorem value?_eq (mirrors : Mirrors point course) (atStage : course.AtStage future stage)
    (submitted : (client, .submitted callback) ∈ stage.life) :
    point.machine.session.cells.value? future = stage.resolution?.map (·.2) := by
  change point.machine.session.world.environment.cells.value? future = _
  rw [← mirrors.world]
  rcases Stage.of_submitted submitted with rfl | ⟨value, rfl⟩ | ⟨value, rfl⟩ | rfl | rfl
  all_goals exact (atStage.cell _ rfl).value?_eq

theorem isDone_iff (mirrors : Mirrors point course) (atStage : course.AtStage future stage)
    (submitted : (client, .submitted callback) ∈ stage.life) :
    point.machine.session.cells.isDone future = true
      ↔ point.Stands client future (.left .completed) := by
  have value := value?_eq mirrors atStage submitted
  rw [Cells.isDone_eq, value, stands_left_iff mirrors atStage]
  rcases Stage.of_submitted submitted with rfl | ⟨value, rfl⟩ | ⟨value, rfl⟩ | rfl | rfl <;>
    simp [Stage.resolution?, Stage.departure?]

/-- The completes that took out a request were made when it was pending under their number. -/
theorem completion_made (leads : (opening session).Leads point) (keeps : point.KeepsToClients)
    {value : Response}
    (member : (client, future.sequence, value) ∈ point.completions future) :
    ∃ earlier, (opening session).Leads earlier ∧ earlier.Leads point
      ∧ earlier.operation? = some (client, .complete future.sequence value)
      ∧ earlier.Stands client future .pending := by
  obtain ⟨turn, made, told⟩ := List.mem_flatMap.mp member
  obtain ⟨earlier, world, before, later, operation, step⟩ := leads.turn_made keeps made
  refine ⟨earlier, before, later, ?_⟩
  unfold Turn.completions at told
  split at told
  next sequence response phase =>
    split at told
    next removed =>
      cases List.mem_singleton.mp told
      rw [phase] at operation step
      refine ⟨operation, ?_⟩
      obtain ⟨known, found, equal, -⟩ := World.step?_eq_some step
      rw [equal] at removed
      obtain ⟨number, answer, entry, same, stored, own⟩ :=
        (known.exit_step _ _).find?_of_completed removed
      cases same
      exact ⟨entry.callback, known, found, entry, Pending.Table.mem_of_find? stored, own, rfl⟩
    next => cases told
  next => cases told

/-! ### The callback -/

theorem InOrder.calm_of_settled (inOrder : point.InOrder)
    (settled : point.machine.isSettling = false) :
    ∀ task ∈ point.machine.agenda, task.isUrgent = false := by
  have later := inOrder.calm
  unfold Machine.isSettling at settled
  cases agenda : point.machine.agenda with
  | nil => simp
  | cons first rest =>
    rw [agenda] at settled later
    intro task member
    rcases List.mem_cons.mp member with rfl | inside
    · simpa using settled
    · exact later task inside

theorem ne_settling_of_settled (mirrors : Mirrors point course)
    (atStage : course.AtStage future stage) (inOrder : point.InOrder)
    (settled : point.machine.isSettling = false) (value : Response) :
    stage ≠ .settling client callback value := by
  rintro rfl
  have completing := atStage.completing
  rw [mirrors.underway] at completing
  have calm := not_completing_of_mem_underway (inOrder.calm_of_settled settled)
  have nothing : completesOf (underway point.machine.agenda) future = [] := by
    refine List.filterMap_eq_nil_iff.mpr fun operation member => ?_
    rw [Phase.settles?_eq_none future (calm operation member)]
    rfl
  rw [nothing] at completing
  cases completing

theorem callsOf_eq (mirrors : Mirrors point course) (atStage : course.AtStage future stage)
    (submitted : (client, .submitted callback) ∈ stage.life) (inOrder : point.InOrder)
    (settled : point.machine.isSettling = false) :
    point.callsOf future
      = if point.machine.session.cells.isDone future then callback.toList else [] := by
  have calls := callsOf_append mirrors atStage inOrder
  rw [List.filterMap_eq_nil_iff.mpr fun task member =>
    Task.call?_of_not_urgent (inOrder.calm_of_settled settled task member)] at calls
  rw [← List.append_nil (point.callsOf future)]
  refine calls.trans ?_
  have done := isDone_iff mirrors atStage submitted
  rw [stands_left_iff mirrors atStage] at done
  rcases Stage.of_submitted submitted with rfl | ⟨value, rfl⟩ | ⟨value, rfl⟩ | rfl | rfl
  · simp [Stage.handover?, Stage.departure?, done]
  · exact absurd rfl (ne_settling_of_settled mirrors atStage inOrder settled value)
  · cases callback <;> simp [Stage.handover?, Stage.departure?, done]
  · simp [Stage.handover?, Stage.departure?, done]
  · simp [Stage.handover?, Stage.departure?, done]

/-- A call of the callback, made or next, is the only one, and the request is completed. -/
theorem called_only_when_done (mirrors : Mirrors point course)
    (atStage : course.AtStage future stage)
    (submitted : (client, .submitted callback) ∈ stage.life) (inOrder : point.InOrder)
    {program : Program}
    (called : program ∈ point.callsOf future
      ++ ((point.machine.agenda.filterMap Task.call?).filter (·.1 = future)).map (·.2)) :
    callback = some program ∧ point.machine.session.cells.isDone future = true
      ∧ point.callsOf future
          ++ ((point.machine.agenda.filterMap Task.call?).filter (·.1 = future)).map (·.2)
        = [program] := by
  have calls := callsOf_append mirrors atStage inOrder
  have done := isDone_iff mirrors atStage submitted
  rw [stands_left_iff mirrors atStage] at done
  rw [calls] at called ⊢
  rcases Stage.of_submitted submitted with rfl | ⟨value, rfl⟩ | ⟨value, rfl⟩ | rfl | rfl
  · cases called
  · cases called
  · cases callback with
    | none => cases called
    | some known =>
      cases List.mem_singleton.mp called
      exact ⟨rfl, done.mpr rfl, rfl⟩
  · cases called
  · cases called

theorem spared_or_called (mirrors : Mirrors point course) (atStage : course.AtStage future stage)
    (submitted : (client, .submitted callback) ∈ stage.life) (inOrder : point.InOrder) :
    point.callsOf future = []
      ∨ (point.machine.session.cells.isDone future = true
        ∧ point.callsOf future = callback.toList) := by
  cases calls : point.callsOf future with
  | nil => exact Or.inl rfl
  | cons program rest =>
    obtain ⟨rfl, done, all⟩ := called_only_when_done mirrors atStage submitted inOrder
      (List.mem_append_left _ (calls ▸ List.mem_cons_self))
    rw [calls, List.cons_append] at all
    refine Or.inr ⟨done, ?_⟩
    obtain ⟨noRest, -⟩ := List.append_eq_nil_iff.mp (List.cons.inj all).2
    rw [noRest]
    rfl

theorem ready_of_next (mirrors : Mirrors point course) (atStage : course.AtStage future stage)
    (submitted : (client, .submitted callback) ∈ stage.life) (inOrder : point.InOrder)
    {program : Program} (next : point.machine.agenda.head? = some (.callBack future program)) :
    callback = some program ∧ point.machine.session.cells.isDone future = true := by
  obtain ⟨rest, agenda⟩ : ∃ rest, point.machine.agenda = .callBack future program :: rest := by
    cases agenda : point.machine.agenda with
    | nil => simp [agenda] at next
    | cons first rest =>
      rw [agenda] at next
      cases next
      exact ⟨rest, rfl⟩
  have next : program ∈
      ((point.machine.agenda.filterMap Task.call?).filter (·.1 = future)).map (·.2) := by
    simp [agenda, Task.call?]
  obtain ⟨own, done, -⟩ := called_only_when_done mirrors atStage submitted inOrder
    (List.mem_append_right _ next)
  exact ⟨own, done⟩

/-! ### The whole life -/

private theorem Leads.stage_of_accepts_earlier (leads : (opening session).Leads point)
    (fresh : session.world.IsFresh) {turn : Turn Program} (member : turn ∈ point.turns)
    (accepts : turn.Accepts client callback future) {later : Point} (onward : point.Leads later)
    (keeps : later.KeepsToClients) :
    ∃ course stage, (Course.opening session.world).Leads course ∧ Mirrors later course
      ∧ course.AtStage future stage ∧ (client, .submitted callback) ∈ stage.life := by
  obtain ⟨more, turns_eq⟩ := onward.turns_eq_append
  have still : turn ∈ later.turns := turns_eq ▸ List.mem_append_left more member
  exact (leads.trans onward).stage_of_accepts keeps fresh still accepts

/-- A request that was accepted is not pending again after it left. -/
theorem not_pending_again (leads : (opening session).Leads point) (fresh : session.world.IsFresh)
    {turn : Turn Program} (member : turn ∈ point.turns)
    (accepts : turn.Accepts client callback future)
    (notPending : ¬ point.Stands client future .pending) {later : Point}
    (onward : point.Leads later) (keeps : later.KeepsToClients) :
    ¬ later.Stands client future .pending := by
  obtain ⟨course, stage, -, mirrors, atStage, submitted⟩ :=
    leads.stage_of_accepts (keeps.of_leads onward) fresh member accepts
  obtain ⟨laterCourse, laterStage, -, laterMirrors, laterAtStage, laterSubmitted⟩ :=
    leads.stage_of_accepts_earlier fresh member accepts onward keeps
  obtain ⟨standing, stands, -⟩ := stands_unique mirrors atStage submitted
  obtain ⟨final, -, unique⟩ := stands_unique laterMirrors laterAtStage laterSubmitted
  intro pending
  cases standing with
  | pending => exact notPending stands
  | left removal =>
    -- The departure is still on record, so the request would stand in two places.
    obtain ⟨more, turns_eq⟩ := onward.turns_eq_append
    have departed : later.Stands client future (.left removal) := by
      change (client, removal) ∈ later.departures future
      unfold departures
      rw [turns_eq, List.flatMap_append]
      exact List.mem_append_left _ stands
    cases (unique _ pending).trans (unique _ departed).symm

/-- A request that was pending when its client was disposed of is pending for good. -/
theorem pending_of_disposed (leads : (opening session).Leads point) (fresh : session.world.IsFresh)
    {turn : Turn Program} (member : turn ∈ point.turns)
    (accepts : turn.Accepts client callback future) {known : Client Program}
    (found : point.machine.session.client? client = some known) (disposed : known.disposed = true)
    (pending : point.Stands client future .pending) {later : Point} (onward : point.Leads later)
    (keeps : later.KeepsToClients) :
    later.Stands client future .pending ∧ later.callsOf future = [] := by
  have kept := keeps.of_leads onward
  have inOrder := leads.inOrder kept
  obtain ⟨course, stage, led, mirrors, atStage, submitted⟩ :=
    leads.stage_of_accepts kept fresh member accepts
  obtain ⟨laterCourse, ledLater, laterMirrors⟩ := onward.mirrors_of inOrder mirrors keeps
  obtain ⟨laterStage, laterAtStage⟩ := ((led.trans ledLater).sound fresh).staged future
  obtain ⟨own, rfl⟩ := (stands_pending_iff mirrors atStage).mp pending
  obtain ⟨first, search, tracked⟩ := (atStage.tracks client own).mpr rfl
  have same := mirrors.client? found
  rw [same] at search
  cases search
  obtain ⟨final, foundLater, -, table_eq⟩ := ledLater.frozen same disposed
  have still : laterStage = .pending client own :=
    (laterAtStage.tracks client own).mp ⟨final, foundLater, table_eq ▸ tracked⟩
  subst still
  refine ⟨(stands_pending_iff laterMirrors laterAtStage).mpr ⟨own, rfl⟩, ?_⟩
  have calls := callsOf_append laterMirrors laterAtStage (onward.inOrder_of inOrder keeps)
  exact (List.append_eq_nil_iff.mp calls).1

/-- The response of a completed request came with the complete that took it out. -/
private theorem response_of_completed (leads : (opening session).Leads point)
    (keeps : point.KeepsToClients) (fresh : session.world.IsFresh)
    (led : (Course.opening session.world).Leads course) (mirrors : Mirrors point course)
    (atStage : course.AtStage future stage)
    (submitted : (client, .submitted callback) ∈ stage.life)
    (completed : point.Stands client future (.left .completed)) :
    ∃ value earlier, point.machine.session.cells.value? future = some value
      ∧ point.completions future = [(client, future.sequence, value)]
      ∧ (opening session).Leads earlier ∧ earlier.Leads point
      ∧ earlier.operation? = some (client, .complete future.sequence value)
      ∧ earlier.Stands client future .pending := by
  have value := value?_eq mirrors atStage submitted
  have completions := completions_eq mirrors atStage led fresh
  have departed := (stands_left_iff mirrors atStage _).mp completed
  obtain ⟨stored, resolution⟩ : ∃ stored, stage.resolution? = some (client, stored) := by
    rcases Stage.of_submitted submitted with rfl | ⟨stored, rfl⟩ | ⟨stored, rfl⟩ | rfl | rfl
    · cases departed
    · exact ⟨stored, rfl⟩
    · exact ⟨stored, rfl⟩
    · cases departed
    · cases departed
  rw [resolution] at value completions
  have taken : (client, future.sequence, stored) ∈ point.completions future := by
    rw [completions]
    exact List.mem_singleton.mpr rfl
  obtain ⟨earlier, before, later, operation, pending⟩ := completion_made leads keeps taken
  exact ⟨stored, earlier, value, completions, before, later, operation, pending⟩

theorem lifeCycle_of_accepts (leads : (opening session).Leads point)
    (keeps : point.KeepsToClients) (fresh : session.world.IsFresh) {turn : Turn Program}
    (member : turn ∈ point.turns) (accepts : turn.Accepts client callback future) :
    LifeCycle (opening session) point client callback future := by
  obtain ⟨course, stage, led, mirrors, atStage, submitted⟩ :=
    leads.stage_of_accepts keeps fresh member accepts
  have inOrder := leads.inOrder keeps
  constructor
  case one => exact stands_unique mirrors atStage submitted
  case once =>
    rw [departures_eq mirrors atStage]
    cases stage.departure? <;> simp
  case never =>
    exact fun notPending later onward kept =>
      not_pending_again leads fresh member accepts notPending onward kept
  case done => exact isDone_iff mirrors atStage submitted
  case response =>
    exact fun completed =>
      response_of_completed leads keeps fresh led mirrors atStage submitted completed
  case called =>
    exact fun settled => callsOf_eq mirrors atStage submitted inOrder settled
  case spared => exact spared_or_called mirrors atStage submitted inOrder
  case ready =>
    exact fun program next => ready_of_next mirrors atStage submitted inOrder next
  case orphaned =>
    exact fun known found disposed pending later onward kept =>
      pending_of_disposed leads fresh member accepts found disposed pending onward kept

theorem accepted_of_told (mirrors : Mirrors point course)
    (told : (client, .submitted callback) ∈ course.life future) :
    ∃ turn ∈ point.turns, turn.Accepts client callback future := by
  obtain ⟨turn, made, life⟩ := List.mem_flatMap.mp told
  obtain ⟨rfl, milestone⟩ := Turn.mem_life.mp life
  exact ⟨turn, mirrors.turns ▸ made, (turn.submitted_mem_milestones future callback).mp milestone⟩

/-- Every callback that ran was handed in with an accepted request, and ran with its future. -/
theorem accepted_of_called (leads : (opening session).Leads point)
    (keeps : point.KeepsToClients) (fresh : session.world.IsFresh) {program : Program}
    (called : (future, program) ∈ point.calls) :
    ∃ turn ∈ point.turns, turn.Accepts turn.client (some program) future := by
  obtain ⟨course, led, mirrors⟩ := leads.mirrors keeps
  obtain ⟨stage, atStage⟩ := (led.sound fresh).staged future
  have calls := callsOf_append mirrors atStage (leads.inOrder keeps)
  have member : program ∈ stage.handover?.toList.map (·.2) := by
    rw [← calls]
    refine List.mem_append_left _ (List.mem_map.mpr ⟨_, List.mem_filter.mpr ⟨called, ?_⟩, rfl⟩)
    simp
  have told : ∃ client, (client, .submitted (some program)) ∈ course.life future := by
    rw [atStage.life]
    cases stage with
    | completed client callback value =>
      cases callback with
      | none => cases member
      | some known =>
        cases List.mem_singleton.mp member
        exact ⟨client, List.mem_cons_self⟩
    | _ => cases member
  obtain ⟨client, told⟩ := told
  obtain ⟨turn, made, accepts⟩ := accepted_of_told mirrors told
  exact ⟨turn, made, rfl, accepts.2⟩

theorem answers_of_live (leads : (opening session).Leads point) (keeps : point.KeepsToClients)
    (fresh : session.world.IsFresh) {index : ClientId} {known : Client Program}
    (found : point.machine.session.client? index = some known) (live : known.disposed = false)
    (sequence : Sequence) (response : Response) :
    known.Answers point.machine.session.environment sequence response
      (known.step point.machine.session.environment (.complete sequence response)) := by
  obtain ⟨course, led, mirrors⟩ := leads.mirrors keeps
  have same := mirrors.client? found
  have environment_eq : course.world.environment = point.machine.session.environment :=
    congrArg World.environment mirrors.world
  rw [← environment_eq]
  refine (known.exit_step course.world.environment (.complete sequence response)).answers live ?_
  intro entry stored
  exact (led.sound fresh).resolve_eq same stored response

end Stages

/-- Exactly once. At every point of a run, whatever operations on whatever clients came before and
however deep inside of callbacks it lies, every accepted request has what it is entitled to, no callback
runs but those of accepted requests, and every response is matched if its number is pending. -/
theorem exactly_once {session : Session} (fresh : session.world.IsFresh) {point : Point}
    (leads : (opening session).Leads point) (keeps : point.KeepsToClients) :
    (∀ turn ∈ point.turns, ∀ client callback future, turn.Accepts client callback future →
      LifeCycle (opening session) point client callback future)
    ∧ (∀ call ∈ point.calls,
      ∃ turn ∈ point.turns, turn.Accepts turn.client (some call.2) call.1)
    ∧ ∀ index client, point.machine.session.client? index = some client →
      client.disposed = false → ∀ sequence response,
        client.Answers point.machine.session.environment sequence response
          (client.step point.machine.session.environment (.complete sequence response)) :=
  ⟨fun _ member _ _ _ accepts => lifeCycle_of_accepts leads keeps fresh member accepts,
    fun _ called => accepted_of_called leads keeps fresh called,
    fun _ _ found live sequence response =>
      answers_of_live leads keeps fresh found live sequence response⟩

/-- The request is completed, and the one that its callback submitted is pending. -/
theorem exactly_once_insideCallback :
    let point := insideCallback.next.next
    LifeCycle (opening solo) point 0 (some [.submit 0 "again" none]) ⟨0, ⟨1⟩⟩
      ∧ point.machine.session.cells.value? ⟨0, ⟨1⟩⟩ = some "pong"
      ∧ point.callsOf ⟨0, ⟨1⟩⟩ = [[.submit 0 "again" none]]
      ∧ LifeCycle (opening solo) point 0 none ⟨1, ⟨2⟩⟩
      ∧ point.machine.session.cells.value? ⟨1, ⟨2⟩⟩ = none := by
  have entitled := (exactly_once solo_isFresh leads_insideCallback.next.next (by decide)).1
  refine ⟨entitled _ (List.mem_of_getElem? (i := 0) rfl) _ _ _ ⟨rfl, rfl, _, rfl⟩, rfl, rfl,
    entitled _ (List.mem_of_getElem? (i := 4) rfl) _ _ _ ⟨rfl, rfl, _, rfl⟩, rfl⟩

end Point

end Session

end Correlator
