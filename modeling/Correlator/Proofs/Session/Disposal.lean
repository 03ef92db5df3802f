import Correlator.Proofs.Client.Refusal
import Correlator.Proofs.Course.Disposal
import Correlator.Proofs.Session.Cancellation
import Correlator.Proofs.Session.Resolution
import Correlator.Proofs.Session.Turn

/-!
Contract: disposal in the runs of a session.

Owns: that a dispose which gets through is carried to its end, that it happens once, what it tells the host
and the transport, and that a client stays as it is once it is out of use.

Does not own: the stages of going out of use along courses (`Correlator.Proofs.Course.Disposal`).
-/

set_option autoImplicit false

namespace Correlator.Session

/-- The rest of a dispose. -/
def Task.isRetiring (task : Task) : Bool := task.operation?.any (·.2.isRetiring)

theorem Task.not_retiring_of_isFresh {task : Task} (fresh : task.isFresh = true) :
    task.isRetiring = false := by
  cases task with
  | advance client phase | step client phase =>
    exact Phase.not_retiring_of_opening fresh
  | _ => rfl

namespace Machine

/-- What a turn leaves of a dispose is next. -/
private theorem agenda_of_retiring {machine : Machine} {task : Task} {client : ClientId}
    {phase later : Phase Program} {turn : Turn Program} {world : World Program}
    (operation : task.operation? = some (client, phase))
    (made : machine.session.world.step? client phase = some (turn, world))
    (goesOn : turn.next = .goesOn later) (retires : later.isRetiring = true) :
    (machine.carryOut task).2.agenda = .advance client later :: machine.agenda := by
  obtain ⟨first, awake⟩ : (phase = .dispose ∨ ∃ orphaned, phase = .deregister orphaned)
      ∧ ∀ clock nap, .slept clock nap ∉ turn.effects := by
    obtain ⟨known, -, rfl, -⟩ := World.step?_eq_some made
    have goesOn : (known.step machine.session.world.environment phase).next = .goesOn later := goesOn
    exact known.awake_of_retiring machine.session.world.environment (by rw [goesOn]; exact retires)
  have steady : ∀ purpose, phase ≠ .probeQuery purpose := by
    rcases first with rfl | ⟨orphaned, rfl⟩ <;> simp
  obtain ⟨known, -, same, -⟩ := World.step?_eq_some made
  rw [machine.carryOut_of_operation operation steady, step_eq made, proceed_of_awake _ _ awake, goesOn,
    same]
  rfl

end Machine

namespace Point

/-- A dispose is next that has yet to be carried to its end. -/
def isDisposing (point : Point) : Bool := point.operation?.any (·.2.isRetiring)

/-- A step that a turn goes on with was made, or is next. -/
def Follows (point : Point) (turn : Turn Program) (phase : Phase Program) : Prop :=
  (∃ made ∈ point.turns, made.client = turn.client ∧ made.phase = phase)
    ∨ point.operation? = some (turn.client, phase)

/-- No dispose is given up on its way, and none is interrupted. -/
structure Unbroken (point : Point) : Prop where
  calm : ∀ task ∈ point.machine.agenda.tail, task.isRetiring = false
  known : ∀ client phase, point.operation? = some (client, phase) → phase.isRetiring = true →
    client < point.machine.session.world.clients.length
  follows : ∀ turn ∈ point.turns, ∀ phase, turn.next = .goesOn phase → phase.isRetiring = true →
    point.Follows turn phase

private theorem operation?_of_first {point : Point} {task : Task} {agenda : List Task}
    (first : point.machine.agenda = task :: agenda) : point.operation? = task.operation? := by
  unfold operation?
  rw [first]
  rfl

private theorem Unbroken.of_calm {point : Point}
    (calm : ∀ task ∈ point.machine.agenda, task.isRetiring = false)
    (made : ∀ turn ∈ point.turns, ∀ phase, turn.next = .goesOn phase → phase.isRetiring = true →
      ∃ made ∈ point.turns, made.client = turn.client ∧ made.phase = phase) : point.Unbroken where
  calm task member := calm task (List.mem_of_mem_tail member)
  known client phase next retires := by
    cases agenda : point.machine.agenda with
    | nil => simp [operation?, agenda] at next
    | cons task rest =>
      rw [operation?_of_first agenda] at next
      have notRetiring := calm task (agenda ▸ List.mem_cons_self)
      simp [Task.isRetiring, next, retires] at notRetiring
  follows turn member phase goesOn retires := Or.inl (made turn member phase goesOn retires)

private theorem settled_following {client : ClientId} {next : Next Program}
    (notRetiring : next.isRetiring = false) :
    ∀ task ∈ following client next, task.isRetiring = false := by
  intro task member
  cases next with
  | goesOn phase =>
    rw [List.mem_singleton.mp member]
    exact notRetiring
  | callsBack future callback =>
    simp only [following, List.mem_cons, List.not_mem_nil, or_false] at member
    rcases member with rfl | rfl <;> rfl
  | returned result | failed fault => cases member

section After

variable {point : Point} {task : Task} {agenda : List Task} {result : Machine.Result}

private theorem Unbroken.calm_rest (unbroken : point.Unbroken)
    (first : point.machine.agenda = task :: agenda) :
    ∀ later ∈ agenda, later.isRetiring = false := by
  have calm := unbroken.calm
  rw [first] at calm
  exact calm

/-- A task that makes no turn, and is not the rest of a dispose itself. -/
private theorem Unbroken.after_silent (unbroken : point.Unbroken)
    (first : point.machine.agenda = task :: agenda) (silent : Trail.turns result.1 = [])
    (notRetiring : task.isRetiring = false)
    (calm : ∀ later ∈ result.2.agenda, later.isRetiring = false) :
    (point.after task result).Unbroken := by
  apply Unbroken.of_calm calm
  intro turn member phase goesOn retires
  rw [turns_after, silent, List.append_nil] at member ⊢
  rcases unbroken.follows turn member phase goesOn retires with made | next
  · exact made
  · rw [operation?_of_first first] at next
    simp [Task.isRetiring, next, retires] at notRetiring

/-- What earlier turns left of a dispose has been made after the next turn. -/
private theorem Unbroken.made_of_turn (unbroken : point.Unbroken)
    (first : point.machine.agenda = task :: agenda) {turn : Turn Program}
    (one : Trail.turns result.1 = [turn])
    (operation : task.operation? = some (turn.client, turn.phase)) {earlier : Turn Program}
    (member : earlier ∈ point.turns) {phase : Phase Program} (goesOn : earlier.next = .goesOn phase)
    (retires : phase.isRetiring = true) :
    ∃ made ∈ (point.after task result).turns, made.client = earlier.client ∧ made.phase = phase := by
  rw [turns_after, one]
  rcases unbroken.follows earlier member phase goesOn retires with ⟨made, before, same⟩ | next
  · exact ⟨made, List.mem_append_left _ before, same⟩
  · rw [operation?_of_first first, operation] at next
    obtain ⟨own, same⟩ := Prod.mk.inj (Option.some.inj next)
    exact ⟨turn, List.mem_append_right _ (List.mem_singleton.mpr rfl), own, same⟩

private theorem Unbroken.after_turn (unbroken : point.Unbroken)
    (first : point.machine.agenda = task :: agenda) {turn : Turn Program}
    (one : Trail.turns result.1 = [turn])
    (operation : task.operation? = some (turn.client, turn.phase))
    (below : turn.client < result.2.session.world.clients.length)
    (onward : ∀ later, turn.next = .goesOn later → later.isRetiring = true →
      result.2.agenda = .advance turn.client later :: agenda)
    (calm : turn.next.isRetiring = false → ∀ later ∈ result.2.agenda, later.isRetiring = false) :
    (point.after task result).Unbroken := by
  have rest := unbroken.calm_rest first
  by_cases retires : turn.next.isRetiring = true
  · obtain ⟨later, goesOn⟩ : ∃ later, turn.next = .goesOn later := by
      cases next : turn.next with
      | goesOn later => exact ⟨later, rfl⟩
      | _ => rw [next] at retires; cases retires
    rw [goesOn] at retires
    have agenda_eq := onward later goesOn retires
    have next : (point.after task result).operation? = some (turn.client, later) := by
      rw [operation?, Point.after, agenda_eq]
      rfl
    constructor
    case calm =>
      show ∀ task ∈ result.2.agenda.tail, task.isRetiring = false
      rw [agenda_eq]
      exact rest
    case known =>
      intro client phase operation _
      rw [next] at operation
      cases operation
      exact below
    case follows =>
      intro known member phase known_next retiresLater
      rw [turns_after, one] at member
      rcases List.mem_append.mp member with before | now
      · exact Or.inl (unbroken.made_of_turn first one operation before known_next retiresLater)
      · rw [List.mem_singleton.mp now] at known_next ⊢
        rw [goesOn] at known_next
        cases known_next
        exact Or.inr next
  · have notRetiring : turn.next.isRetiring = false := by simpa using retires
    apply Unbroken.of_calm (calm notRetiring)
    intro known member phase goesOn retiresLater
    have whole := member
    rw [turns_after, one] at member
    rcases List.mem_append.mp member with before | now
    · exact unbroken.made_of_turn first one operation before goesOn retiresLater
    · rw [List.mem_singleton.mp now] at goesOn
      rw [goesOn] at notRetiring
      exact absurd retiresLater (by simpa [Next.isRetiring] using notRetiring)

/-- A task without a turn is not the rest of a dispose: the client of a dispose is known to be there. -/
private theorem Unbroken.not_retiring_of_silent (unbroken : point.Unbroken)
    (first : point.machine.agenda = task :: agenda)
    (outcome : Machine.Outcome { point.machine with agenda } task result)
    (silent : Trail.turns result.1 = []) : task.isRetiring = false := by
  cases outcome with
  | begins idle | acts act idle | breaksOff idle =>
    rw [Task.isRetiring, idle]
    rfl
  | calls | defers => rfl
  | @drops _ client phase _ operation unknown world_eq agenda_eq =>
    rw [Task.isRetiring, operation]
    by_contra retires
    have below := unbroken.known client phase (by rw [operation?_of_first first, operation])
      (by simpa using retires)
    simp [World.step?, below] at unknown
  | fails | turns => cases silent

/-- What a task without a turn adds to the agenda is not the rest of a dispose. -/
private theorem calm_of_silent (rest : ∀ later ∈ agenda, later.isRetiring = false)
    (outcome : Machine.Outcome { point.machine with agenda } task result)
    (silent : Trail.turns result.1 = []) :
    ∀ later ∈ result.2.agenda, later.isRetiring = false := by
  have joined : ∀ fresh : List Task, (∀ later ∈ fresh, later.isRetiring = false) →
      ∀ later ∈ fresh ++ agenda, later.isRetiring = false := by
    intro fresh areCalm later member
    exact (List.mem_append.mp member).elim (areCalm later) (rest later)
  cases outcome with
  | begins idle uncalled silent begins =>
    obtain ⟨fresh, agenda_eq, areFresh⟩ := begins.agenda_eq
    rw [agenda_eq]
    exact joined fresh fun later member => Task.not_retiring_of_isFresh (areFresh later member)
  | acts act idle uncalled world_eq agenda_eq | drops operation unknown world_eq agenda_eq =>
    rw [agenda_eq]
    exact rest
  | breaksOff idle uncalled world_eq agenda_eq =>
    rw [agenda_eq]
    simp
  | calls silent world_eq agenda_eq =>
    rw [agenda_eq]
    exact joined _ fun later member =>
      Task.not_retiring_of_isFresh (Machine.isFresh_of_mem_tasks member).1
  | defers fresh world_eq agenda_eq areFresh =>
    rw [agenda_eq, List.append_cons]
    apply joined
    intro later member
    rcases List.mem_append.mp member with new | last
    · exact Task.not_retiring_of_isFresh (areFresh later new).1
    · rw [List.mem_singleton.mp last]
      rfl
  | fails | turns => cases silent

end After

private theorem Unbroken.work {point : Point} (unbroken : point.Unbroken) {task : Task}
    {agenda : List Task} (first : point.machine.agenda = task :: agenda)
    (keeps : task.isDirect = false) : (point.work task agenda).Unbroken := by
  have rest := unbroken.calm_rest first
  have retiring := @Machine.agenda_of_retiring { point.machine with agenda } task
  have outcome := Machine.outcome_carryOut { point.machine with agenda } keeps
  unfold Point.work
  generalize ({ point.machine with agenda } : Machine).carryOut task = result at outcome retiring
  by_cases silent : Trail.turns result.1 = []
  · exact unbroken.after_silent first silent (unbroken.not_retiring_of_silent first outcome silent)
      (calm_of_silent rest outcome silent)
  cases outcome with
  | fails operation made failed world_eq agenda_eq =>
    obtain ⟨client, found, rfl, rfl⟩ := World.step?_eq_some made
    have below := (List.getElem?_eq_some_iff.mp found).1
    apply unbroken.after_turn first rfl operation
    · rw [world_eq]
      simpa using below
    · intro later goesOn
      rw [failed] at goesOn
      cases goesOn
    · rw [agenda_eq]
      simp
  | turns fresh operation made world_eq agenda_eq areFresh asleep =>
    obtain ⟨client, found, rfl, rfl⟩ := World.step?_eq_some made
    have below := (List.getElem?_eq_some_iff.mp found).1
    apply unbroken.after_turn first rfl operation
    · rw [world_eq]
      simpa using below
    · exact fun later goesOn retires => retiring operation made goesOn retires
    · intro notRetiring later member
      rw [agenda_eq] at member
      rcases List.mem_append.mp member with new | old
      · exact Task.not_retiring_of_isFresh (areFresh later new).1
      · rcases List.mem_append.mp old with left | last
        · exact settled_following notRetiring later left
        · exact rest later last
  | begins _ _ quiet | calls quiet => exact absurd quiet silent
  | _ => exact absurd rfl silent

theorem Leads.unbroken {session : Session} {point : Point} (leads : (opening session).Leads point)
    (keeps : point.KeepsToClients) : point.Unbroken := by
  induction leads with
  | here => exact .of_calm (by simp [opening]) (by simp [opening, turns, Trail.turns])
  | @ask point op leads idle inductionHypothesis =>
    have before := inductionHypothesis keeps
    apply Unbroken.of_calm
    · intro task member
      rw [List.mem_singleton.mp member]
      rfl
    · intro turn member phase goesOn retires
      rcases before.follows turn member phase goesOn retires with made | next
      · exact made
      · simp [operation?, idle] at next
  | work task agenda leads first inductionHypothesis =>
    obtain ⟨earlier, kept⟩ := keeps.of_work
    exact (inductionHypothesis earlier).work first kept

/-! ### Going out of use -/

/-- What a client did so far when it went out of use. -/
def farewells (point : Point) (index : ClientId) : List Farewell :=
  shared point.turns (· = index) Turn.farewells

/-- What becomes of a client that is out of use, with the pending requests that it had. -/
structure OutOfUse (point : Point) (index : ClientId) (client : Client Program) : Prop where
  /-- It stays out of use, and its table as it was. -/
  same : ∃ known, point.machine.session.client? index = some known ∧ known.disposed = true
    ∧ known.table = client.table
  /-- Every operation that begins on it comes to an end, whatever the environment is like by then, and
  does not succeed. -/
  refuses : ∀ known, point.machine.session.client? index = some known →
    ∀ environment phase, phase.isOpening = true →
      (∃ ending, known.Performs environment phase ending)
        ∧ ∀ ending, known.Performs environment phase ending → ending.next.succeeds = false
  /-- Its pending requests get no response, and their callbacks are not called. -/
  orphans : ∀ row ∈ client.table.rows,
    point.machine.session.cells.value? row.2.future = none ∧ point.callsOf row.2.future = []

/-- What the disposal of a client comes to at a point. -/
structure Disposal (start point : Point) (index : ClientId) (client : Client Program) : Prop where
  /-- It signs off from a host that is there, releases its transport, and succeeds, in this order and
  each of it once at most. -/
  once : ∃ known, point.farewells index <+: Retirement.farewell client known
  /-- A client in use has done nothing of it. -/
  inUse : client.disposed = false → point.farewells index = []
  /-- A client out of use has done all of it, unless the rest is next. It has signed off if the host was
  there when it looked, and only then. -/
  gone : client.disposed = true → point.isDisposing = false →
    ∃ earlier orphaned, start.Leads earlier ∧ earlier.Leads point
      ∧ earlier.operation? = some (index, .deregister orphaned)
      ∧ point.farewells index
        = Retirement.farewell client (earlier.machine.session.environment.host client.host).isValid
  /-- It is out of use for good. -/
  frozen : client.disposed = true → ∀ later, point.Leads later → later.KeepsToClients →
    later.OutOfUse index client

variable {session : Session} {point later : Point} {index : ClientId} {client : Client Program}
  {course : Course Program} {stage : Retirement}

private theorem farewells_eq (mirrors : Mirrors point course)
    (atStage : course.AtRetirement index client stage) :
    point.farewells index = stage.farewells client := by
  rw [← atStage.farewells, mirrors.turns]
  rfl

/-- When no dispose is next, no client is on its way out of use. -/
private theorem next?_eq_none (mirrors : Mirrors point course) (unbroken : point.Unbroken)
    (notDisposing : point.isDisposing = false) (atStage : course.AtRetirement index client stage) :
    (stage.next? : Option (Phase Program)) = none := by
  cases next : (stage.next? : Option (Phase Program)) with
  | none => rfl
  | some phase =>
    have retires : phase.isRetiring = true := by
      cases stage <;> cases next <;> rfl
    obtain ⟨turn, member, rfl, goesOn⟩ := atStage.announced phase next
    rcases unbroken.follows turn (mirrors.turns ▸ member) phase goesOn retires with
      ⟨made, among, own, same⟩ | waiting
    · have done : phase ∈ (stage.made : List (Phase Program)) := by
        rw [← atStage.made, mirrors.turns]
        refine List.mem_flatMap.mpr ⟨made, List.mem_filter.mpr ⟨among, decide_eq_true own⟩, ?_⟩
        simp [Turn.retiring, same, retires]
      cases stage with
      | inUse | released => cases next
      | retired => cases done
      | signedOff =>
        cases next
        cases List.mem_singleton.mp done
    · simp [isDisposing, waiting, retires] at notDisposing

/-- A client is registered with the same host at every point. -/
private theorem host_eq_of_leads (leads : (opening session).Leads point) (onward : point.Leads later)
    (keeps : later.KeepsToClients) {actor : Client Program}
    (before : point.machine.session.client? index = some actor)
    (found : later.machine.session.client? index = some client) : actor.host = client.host := by
  have kept := keeps.of_leads onward
  obtain ⟨course, -, mirrors⟩ := leads.mirrors kept
  obtain ⟨laterCourse, ledOn, laterMirrors⟩ := onward.mirrors_of (leads.inOrder kept) mirrors keeps
  have registered := ledOn.registered_eq client.host index
  simpa [World.registered, mirrors.client? before, laterMirrors.client? found] using registered

/-- The host was there if the client signed off, and only then. -/
private theorem isValid_of_looked (leads : (opening session).Leads point)
    (keeps : point.KeepsToClients) (mirrors : Mirrors point course)
    (found : point.machine.session.client? index = some client)
    (atStage : course.AtRetirement index client stage) {orphaned : Nat} {known : Bool}
    (looked : stage.looked? = some (orphaned, known)) :
    ∃ earlier, (opening session).Leads earlier ∧ earlier.Leads point
      ∧ earlier.operation? = some (index, .deregister orphaned)
      ∧ known = (earlier.machine.session.environment.host client.host).isValid := by
  obtain ⟨turn, member, rfl, phase, saw⟩ := atStage.looked orphaned known looked
  obtain ⟨earlier, world, before, onward, operation, made⟩ :=
    leads.turn_made keeps (mirrors.turns ▸ member)
  obtain ⟨actor, acting, equal, -⟩ := World.step?_eq_some made
  refine ⟨earlier, before, onward, phase ▸ operation, ?_⟩
  rw [← host_eq_of_leads before onward keeps acting found]
  rw [equal] at saw
  dsimp only at saw
  rw [phase] at saw
  exact ((actor.step_deregister earlier.machine.session.world.environment orphaned).2.2 known).mp saw

private theorem outOfUse_of_disposed (fresh : session.world.IsFresh)
    (leads : (opening session).Leads point)
    (found : point.machine.session.client? index = some client) (disposed : client.disposed = true)
    (onward : point.Leads later) (keeps : later.KeepsToClients) :
    later.OutOfUse index client := by
  have kept := keeps.of_leads onward
  obtain ⟨course, led, mirrors⟩ := leads.mirrors kept
  obtain ⟨laterCourse, ledOn, laterMirrors⟩ := onward.mirrors_of (leads.inOrder kept) mirrors keeps
  obtain ⟨known, search, gone, table_eq⟩ := ledOn.frozen (mirrors.client? found) disposed
  rw [laterMirrors.world] at search
  have search : later.machine.session.client? index = some known := search
  constructor
  case same => exact ⟨known, search, gone, table_eq⟩
  case refuses =>
    intro other same environment phase opening
    cases search.symm.trans same
    have performs : ∀ ending, known.Performs environment phase ending
        ↔ ending = known.turnedAway environment phase := fun ending =>
      Client.performs_iff_of_disposed gone opening
    refine ⟨⟨_, (performs _).mpr rfl⟩, ?_⟩
    rintro ending performed
    rw [(performs ending).mp performed]
    rcases known.turnedAway_next environment phase with refused | broke
    · rw [refused]
      rfl
    · rw [broke]
      rfl
  case orphans =>
    intro row member
    have resolvable := resolvable_of_leads (leads.trans onward) keeps fresh
    have empty := resolvable.unresolved index known search row (table_eq ▸ member)
    refine ⟨empty.value?_eq, ?_⟩
    have filed := filed_of_leads leads kept fresh found
    have tracked := filed.tracks_of_mem member
    obtain ⟨turn, made, accepts⟩ := accepted_of_tracks leads kept fresh ⟨client, found, tracked⟩
    have pending := (tracks_iff_stands found row.2.future).mp ⟨_, tracked⟩
    exact (pending_of_disposed leads fresh made accepts found disposed pending onward keeps).2

theorem disposal_of_leads (fresh : session.world.IsFresh) (leads : (opening session).Leads point)
    (keeps : point.KeepsToClients) (found : point.machine.session.client? index = some client) :
    Disposal (opening session) point index client := by
  obtain ⟨course, led, mirrors⟩ := leads.mirrors keeps
  obtain ⟨stage, atStage⟩ := led.retires fresh index client (mirrors.client? found)
  have farewells := farewells_eq mirrors atStage
  constructor
  case once =>
    rw [farewells]
    cases stage with
    | inUse | retired => exact ⟨true, List.nil_prefix⟩
    | signedOff orphaned known => exact ⟨known, List.prefix_append _ _⟩
    | released orphaned known => exact ⟨known, List.prefix_refl _⟩
  case inUse =>
    intro live
    rw [atStage.disposed] at live
    rw [farewells]
    cases stage <;> first | rfl | cases live
  case gone =>
    intro disposed notDisposing
    have settled := next?_eq_none mirrors (leads.unbroken keeps) notDisposing atStage
    rw [atStage.disposed] at disposed
    cases stage with
    | inUse => cases disposed
    | retired | signedOff => cases settled
    | released orphaned known =>
      obtain ⟨earlier, before, onward, operation, rfl⟩ :=
        isValid_of_looked leads keeps mirrors found atStage rfl
      exact ⟨earlier, orphaned, before, onward, operation, farewells⟩
  case frozen =>
    exact fun disposed later onward kept =>
      outOfUse_of_disposed fresh leads found disposed onward kept

/-- Disposal happens once and is for good. At every point of a run, every client has bidden the farewells
that its disposal entitles it to, once, and is left alone from then on. No other step bids one: they are
what the hosts have on record, and unless a dispose is next, each transport was released as often as clients
on it are out of use. -/
theorem disposal (fresh : session.world.IsFresh) (leads : (opening session).Leads point)
    (keeps : point.KeepsToClients) :
    (∀ index client, point.machine.session.client? index = some client →
      Disposal (opening session) point index client)
    ∧ (∀ turn ∈ point.turns, turn.farewells ≠ [] → turn.phase.isRetiring = true)
    ∧ (∀ host, (point.machine.session.environment.host host).deregistered
      = (session.environment.host host).deregistered
        ++ shared point.turns (session.world.registered host) Turn.deregistrations)
    ∧ (point.isDisposing = false → ∀ transport,
      session.environment.released? transport = some 0 →
        point.machine.session.environment.released? transport
          = some (point.machine.session.world.disposed transport).card) := by
  obtain ⟨course, led, mirrors⟩ := leads.mirrors keeps
  have environment_eq : course.world.environment = point.machine.session.environment :=
    congrArg World.environment mirrors.world
  refine ⟨fun index client found => disposal_of_leads fresh leads keeps found, ?_, ?_, ?_⟩
  · intro turn member bids
    obtain ⟨earlier, world, -, -, -, made⟩ := leads.turn_made keeps member
    obtain ⟨client, -, equal, -⟩ := World.step?_eq_some made
    by_contra notRetiring
    apply bids
    rw [equal]
    exact client.farewells_of_not_retiring earlier.machine.session.world.environment turn.client
      (by simpa using notRetiring)
  · intro host
    rw [← environment_eq, led.farewells_eq.2, mirrors.turns]
    rfl
  · intro notDisposing transport unused
    rw [← environment_eq, ← mirrors.world]
    apply led.released?_eq_card fresh unused
    intro index client stage _ atStage
    exact next?_eq_none mirrors (leads.unbroken keeps) notDisposing atStage

/-- When a session begins, none of its transports has been released. -/
theorem released?_of_start {specs : List ClientSpec} {registries : Pool Discovery}
    {transport : TransportId} (started : start specs registries = .ok session)
    (below : transport < specs.length) : session.environment.released? transport = some 0 := by
  unfold start at started
  dsimp only at started
  split at started
  · cases started
  · cases started
    simp [Session.environment, Environment.released?, below]

/-- A point after a callback has disposed of its client, with another request pending. -/
def orphaning : Point :=
  (((opening solo).ask (.submit 0 "first" (some [.dispose 0]))).next.next.next.ask
    (.submit 0 "second" none)).next.next.next.ask (.complete 0 (.number ⟨1⟩) "done")
      |>.next.next.next.next.next.next.next.next.next.next.next

theorem leads_orphaning : (opening solo).Leads orphaning :=
  .next (.next (.next (.next (.next (.next (.next (.next (.next (.next (.next (.ask _
    (.next (.next (.next (.ask _ (.next (.next (.next (.ask _ .here rfl)))) rfl)))) rfl)))))))))))

/-- The pending request is an orphan there, and the transport was released once. -/
theorem disposal_orphaning :
    orphaning.farewells 0 = [.deregistered "echo", .released 0, .succeeded]
      ∧ orphaning.machine.session.environment.released? 0 = some 1
      ∧ ∀ later, orphaning.Leads later → later.KeepsToClients →
        later.machine.session.cells.value? ⟨1, ⟨2⟩⟩ = none ∧ later.callsOf ⟨1, ⟨2⟩⟩ = [] := by
  have unused : solo.environment.released? 0 = some 0 :=
    released?_of_start start_solo (by decide)
  obtain ⟨clients, -, -, released⟩ := disposal solo_isFresh leads_orphaning (by decide)
  obtain ⟨client, found⟩ : ∃ client, orphaning.machine.session.client? 0 = some client := ⟨_, rfl⟩
  have gone : client.disposed = true := by
    cases found
    rfl
  have orphan : ∃ row ∈ client.table.rows, row.2.future = ⟨1, ⟨2⟩⟩ := by
    cases found
    exact ⟨_, List.mem_cons_self, rfl⟩
  obtain ⟨row, member, own⟩ := orphan
  refine ⟨by decide, released rfl 0 unused, fun later onward keeps => ?_⟩
  exact own ▸ ((clients 0 client found).frozen gone later onward keeps).orphans row member

end Point

end Correlator.Session
