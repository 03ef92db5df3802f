import Correlator.Proofs.Client.Disposal
import Correlator.Proofs.Course.Ledger

/-!
Contract: clients that go out of use, along courses.

Owns: how far a client has come in going out of use, that it goes through these stages in their order and
never again, and what the hosts and the transports have seen of it.

Does not own: that a client which begins to go out of use gets to the end (`Correlator.Proofs.Session.Disposal`).
In a course it may be given up on the way.
-/

set_option autoImplicit false

namespace Correlator

variable {κ : Type}

theorem Phase.not_retiring_of_opening {phase : Phase κ} (opening : phase.isOpening = true) :
    phase.isRetiring = false := by
  cases phase <;> first | rfl | cases opening

namespace Turn

/-- The steps of a dispose, behind the first, that were made in a turn. -/
def retiring (turn : Turn κ) : List (Phase κ) :=
  if turn.phase.isRetiring then [turn.phase] else []

/-- The services that signed off in a turn. -/
def deregistrations (turn : Turn κ) : List String :=
  turn.farewells.filterMap fun farewell =>
    match farewell with
    | .deregistered service => some service
    | _ => none

/-- The transports that were released in a turn. -/
def releases (turn : Turn κ) : List TransportId :=
  turn.farewells.filterMap fun farewell =>
    match farewell with
    | .released transport => some transport
    | _ => none

end Turn

/-- How far a client has come in going out of use. It takes its pending requests with it; `known` is
whether its host was there when the client signed off. -/
inductive Retirement where
  | inUse
  | retired (orphaned : Nat)
  | signedOff (orphaned : Nat) (known : Bool)
  | released (orphaned : Nat) (known : Bool)
deriving DecidableEq, Repr

namespace Retirement

def isDisposed : Retirement → Bool
  | .inUse => false
  | _ => true

/-- The step that comes next, if the dispose goes on. -/
def next? : Retirement → Option (Phase κ)
  | .retired orphaned => some (.deregister orphaned)
  | .signedOff orphaned _ => some (.release orphaned)
  | .inUse | .released _ _ => none

/-- The steps made so far, behind the first. -/
def made : Retirement → List (Phase κ)
  | .inUse | .retired _ => []
  | .signedOff orphaned _ => [.deregister orphaned]
  | .released orphaned _ => [.deregister orphaned, .release orphaned]

/-- What a client tells a host that is there. -/
def notice (client : Client κ) (known : Bool) : List Farewell :=
  if known then [.deregistered client.service] else []

/-- All that a client does when it goes out of use. -/
def farewell (client : Client κ) (known : Bool) : List Farewell :=
  notice client known ++ [.released client.transport, .succeeded]

def farewells (client : Client κ) : Retirement → List Farewell
  | .inUse | .retired _ => []
  | .signedOff _ known => notice client known
  | .released _ known => farewell client known

/-- Whether the host was there, once it was looked for. -/
def looked? : Retirement → Option (Nat × Bool)
  | .signedOff orphaned known | .released orphaned known => some (orphaned, known)
  | .inUse | .retired _ => none

end Retirement

namespace Environment

theorem deregistered_deregister (environment : Environment) (index : HostId) (service : String)
    (host : HostId) :
    ((environment.deregister index service).host host).deregistered
      = (environment.host host).deregistered ++ if index = host then [service] else [] := by
  unfold deregister
  rw [host_setHost]
  by_cases same : index = host
  · rw [if_pos same, if_pos same, ← same]
    rfl
  · rw [if_neg same, if_neg same, List.append_nil]

end Environment

/-- A client is registered with a host. -/
def World.registered (world : World κ) (host : HostId) (index : ClientId) : Bool :=
  (world.clients[index]?).any (·.host == host)

namespace Client

/-- No step registers a client with another host. -/
theorem Exit.host_eq {client : Client κ} {environment : Environment} {phase : Phase κ} {step : Step κ}
    (exit : client.Exit environment phase step) : step.client.host = client.host := by
  cases exit with
  | aside isAside client_eq cells_eq effects next => rw [client_eq]
  | _ => rfl

variable (client : Client κ) (environment : Environment) (index : ClientId)

/-- The turn of a step of a client. -/
def turn (phase : Phase κ) : Turn κ :=
  ⟨index, client.service, phase, (client.step environment phase).effects,
    (client.step environment phase).next⟩

/-- Only the later steps of a dispose bid farewell. -/
theorem farewells_of_not_retiring {phase : Phase κ} (notRetiring : phase.isRetiring = false) :
    (client.turn environment index phase).farewells = [] := by
  have quiet : (client.turn environment index phase).effects.filterMap Effect.farewell? = [] :=
    List.filterMap_eq_nil_iff.mpr (client.quiet_step environment notRetiring).2.2
  unfold Turn.farewells
  rw [quiet, List.nil_append]
  cases phase with
  | dispose =>
    unfold turn step whileLive
    dsimp only
    split <;> rfl
  | deregister | release => cases notRetiring
  | _ => rfl

theorem farewells_deregister (orphaned : Nat) :
    (client.turn environment index (.deregister orphaned)).farewells
      = Retirement.notice client (environment.host client.host).isValid := by
  unfold turn step deregister Retirement.notice
  cases (environment.host client.host).isValid <;> rfl

theorem farewells_release (orphaned : Nat) :
    (client.turn environment index (.release orphaned)).farewells
      = [.released client.transport, .succeeded] := by
  unfold turn step release
  by_cases none : orphaned = 0
  · subst none
    rfl
  · simp [Turn.farewells, Effect.farewell?, Phase.disposes, Next.succeeds, none]

/-- A step shows in the releases of its client's transport and in the record of its client's host by the
farewells of its turn, and in no other way. -/
theorem farewells_step (phase : Phase κ) :
    (∀ transport, (client.step environment phase).environment.released? transport
      = (environment.released? transport).map
          (· + if client.transport = transport then
            (client.turn environment index phase).releases.length else 0))
    ∧ ∀ host, ((client.step environment phase).environment.host host).deregistered
      = (environment.host host).deregistered
        ++ if client.host = host then (client.turn environment index phase).deregistrations
          else [] := by
  by_cases retires : phase.isRetiring = true
  · cases phase with
    | deregister orphaned =>
      unfold Turn.releases Turn.deregistrations
      rw [client.farewells_deregister]
      unfold step deregister Retirement.notice
      cases (environment.host client.host).isValid with
      | true =>
        refine ⟨fun transport => ?_, environment.deregistered_deregister client.host client.service⟩
        simp [Environment.released?, Environment.deregister, Environment.setHost, Function.comp_def]
      | false => simp [Environment.released?, Function.comp_def]
    | release orphaned =>
      have one : (environment.transport client.transport).release.releases
          = (environment.transport client.transport).releases + 1 := rfl
      unfold Turn.releases Turn.deregistrations
      rw [client.farewells_release]
      refine ⟨fun transport => environment.released?_setTransport _ transport one, fun host => ?_⟩
      have nothing : (if client.host = host then ([] : List String) else []) = [] := ite_self _
      exact ((congrArg _ nothing).trans (List.append_nil _)).symm
    | _ => cases retires
  · have notRetiring : phase.isRetiring = false := by simpa using retires
    obtain ⟨hosts, released, -⟩ := client.quiet_step environment notRetiring
    unfold Turn.releases Turn.deregistrations
    rw [client.farewells_of_not_retiring environment index notRetiring]
    constructor
    · intro transport
      rw [released]
      simp
    · intro host
      simp [Environment.host, hosts]

end Client

namespace Course

/-- The steps under way with which a client goes on to go out of use. -/
def retiring (underway : List (ClientId × Phase κ)) (index : ClientId) : List (Phase κ) :=
  (underway.filter fun operation => operation.1 = index && operation.2.isRetiring).map (·.2)

theorem retiring_append (front back : List (ClientId × Phase κ)) (index : ClientId) :
    retiring (front ++ back) index = retiring front index ++ retiring back index := by
  unfold retiring
  rw [List.filter_append, List.map_append]

theorem retiring_cons_of_not {operation : ClientId × Phase κ} {index : ClientId}
    (not : operation.1 ≠ index ∨ operation.2.isRetiring = false)
    (rest : List (ClientId × Phase κ)) :
    retiring (operation :: rest) index = retiring rest index := by
  unfold retiring
  rw [List.filter_cons_of_neg]
  rcases not with other | calm
  · simp [other]
  · simp [calm]

/-- A client has come as far as a stage says: what it did and what it is about to do is what belongs to
the stage. -/
structure AtRetirement (course : Course κ) (index : ClientId) (client : Client κ)
    (stage : Retirement) : Prop where
  disposed : client.disposed = stage.isDisposed
  farewells : shared course.turns (· = index) Turn.farewells = stage.farewells client
  made : shared course.turns (· = index) Turn.retiring = stage.made
  /-- The turn made last by the dispose goes on with the step that comes next. -/
  announced : ∀ phase, stage.next? = some phase →
    ∃ turn ∈ course.turns, turn.client = index ∧ turn.next = .goesOn phase
  /-- No other step of a dispose is under way, and this one perhaps neither. -/
  underway : (retiring course.underway index).Sublist stage.next?.toList
  /-- The host was looked for in the turn in which the client signed off. -/
  looked : ∀ orphaned known, stage.looked? = some (orphaned, known) →
    ∃ turn ∈ course.turns, turn.client = index ∧ turn.phase = .deregister orphaned
      ∧ .sawHost known ∈ turn.effects

def Retires (course : Course κ) : Prop :=
  ∀ index client, course.world.clients[index]? = some client →
    ∃ stage, course.AtRetirement index client stage

variable {course : Course κ} {front back : List (ClientId × Phase κ)} {index : ClientId}
  {client : Client κ} {phase : Phase κ} {stage : Retirement}

/-- A dispose under way is the one that comes next, and the only one. -/
private theorem AtRetirement.due (atStage : course.AtRetirement index client stage)
    (split : course.underway = front ++ (index, phase) :: back)
    (retiringNow : phase.isRetiring = true) :
    stage.next? = some phase ∧ retiring front index = [] ∧ retiring back index = [] := by
  have within := atStage.underway
  have here : retiring ((index, phase) :: back) index = phase :: retiring back index := by
    unfold retiring
    rw [List.filter_cons_of_pos (by simp [retiringNow])]
    rfl
  rw [split, retiring_append, here] at within
  cases next : (stage.next? : Option (Phase κ)) with
  | none =>
    rw [next] at within
    simp at within
  | some due =>
    rw [next] at within
    have length := within.length_le
    simp only [List.length_append, List.length_cons, Option.toList_some, List.length_nil] at length
    have frontNone : retiring front index = [] := List.eq_nil_of_length_eq_zero (by omega)
    have backNone : retiring back index = [] := List.eq_nil_of_length_eq_zero (by omega)
    rw [frontNone, backNone, List.nil_append] at within
    obtain ⟨rfl, -⟩ := by simpa using within
    exact ⟨rfl, frontNone, backNone⟩

private theorem retiring_singleton (phase : Phase κ) (index : ClientId) :
    retiring [(index, phase)] index = if phase.isRetiring then [phase] else [] := by
  unfold retiring
  by_cases retires : phase.isRetiring = true <;> simp [retires]

private theorem retiring_next (next : Next κ) (index : ClientId) :
    retiring (next.phase?.map fun phase => (index, phase)).toList index
      = if next.isRetiring then next.phase?.toList else [] := by
  cases next with
  | goesOn phase => exact retiring_singleton phase index
  | _ => rfl

/-- The stage after a step of the client itself: what the step adds is what the two stages differ in. -/
private theorem AtRetirement.after_own (atStage : course.AtRetirement index client stage)
    {later : Retirement}
    (disposed : (client.step course.world.environment phase).client.disposed = later.isDisposed)
    (farewells : stage.farewells client
        ++ (client.turn course.world.environment index phase).farewells
      = later.farewells (client.step course.world.environment phase).client)
    (made : stage.made ++ (client.turn course.world.environment index phase).retiring = later.made)
    (announced : ∀ due, later.next? = some due →
      (client.step course.world.environment phase).next = .goesOn due ∨ stage.next? = some due)
    (underway : retiring front index
        ++ (retiring ((client.step course.world.environment phase).next.phase?.map
          fun phase => (index, phase)).toList index ++ retiring back index)
      |>.Sublist later.next?.toList)
    (looked : ∀ orphaned known, later.looked? = some (orphaned, known) →
      (phase = .deregister orphaned
          ∧ .sawHost known ∈ (client.step course.world.environment phase).effects)
        ∨ stage.looked? = some (orphaned, known)) :
    (course.after front back index client.service phase
      (client.step course.world.environment phase)).AtRetirement index
        (client.step course.world.environment phase).client later := by
  have last : client.turn course.world.environment index phase ∈ (course.after front back index
      client.service phase (client.step course.world.environment phase)).turns :=
    List.mem_append_right _ (List.mem_singleton.mpr rfl)
  have extended : ∀ {α : Type} (account : Turn κ → List α),
      shared (course.after front back index client.service phase
          (client.step course.world.environment phase)).turns (· = index) account
        = shared course.turns (· = index) account
          ++ account (client.turn course.world.environment index phase) := by
    intro α account
    exact (shared_append _ _ _ _).trans (congrArg _ (if_pos (decide_eq_true rfl)))
  constructor
  case disposed => exact disposed
  case farewells => rw [extended, atStage.farewells, farewells]
  case made => rw [extended, atStage.made, made]
  case announced =>
    intro due next
    rcases announced due next with now | before
    · exact ⟨_, last, rfl, now⟩
    · obtain ⟨turn, member, own, goesOn⟩ := atStage.announced due before
      exact ⟨turn, List.mem_append_left _ member, own, goesOn⟩
  case underway =>
    unfold Course.after
    rw [retiring_append, retiring_append, List.append_assoc]
    exact underway
  case looked =>
    intro orphaned known seen
    rcases looked orphaned known seen with ⟨now, saw⟩ | before
    · exact ⟨_, last, rfl, now, saw⟩
    · obtain ⟨turn, member, own, signed, saw⟩ := atStage.looked orphaned known before
      exact ⟨turn, List.mem_append_left _ member, own, signed, saw⟩

private theorem farewells_congr {other : Client κ} (stage : Retirement)
    (descriptor : other.descriptor = client.descriptor)
    (transport : other.transport = client.transport) :
    stage.farewells other = stage.farewells client := by
  cases stage <;>
    simp [Retirement.farewells, Retirement.farewell, Retirement.notice, Client.service, descriptor,
      transport]

private theorem AtRetirement.signsOff {orphaned : Nat}
    (atStage : course.AtRetirement index client (.retired orphaned))
    (split : course.underway = front ++ (index, .deregister orphaned) :: back) :
    (course.after front back index client.service (.deregister orphaned)
      (client.step course.world.environment (.deregister orphaned))).AtRetirement index
        (client.step course.world.environment (.deregister orphaned)).client
        (.signedOff orphaned (course.world.environment.host client.host).isValid) := by
  obtain ⟨-, frontNone, backNone⟩ := atStage.due split rfl
  obtain ⟨client_eq, next, saw⟩ := client.step_deregister course.world.environment orphaned
  apply atStage.after_own
  case disposed =>
    rw [client_eq]
    exact atStage.disposed
  case farewells =>
    rw [client.farewells_deregister, client_eq]
    rfl
  case made => rfl
  case announced =>
    rintro due ⟨⟩
    exact Or.inl next
  case underway =>
    rw [frontNone, backNone, next, retiring_next]
    exact List.Sublist.refl _
  case looked =>
    rintro known isValid ⟨⟩
    exact Or.inl ⟨rfl, (saw _).mpr rfl⟩

private theorem AtRetirement.releases {orphaned : Nat} {known : Bool}
    (atStage : course.AtRetirement index client (.signedOff orphaned known))
    (split : course.underway = front ++ (index, .release orphaned) :: back) :
    (course.after front back index client.service (.release orphaned)
      (client.step course.world.environment (.release orphaned))).AtRetirement index
        (client.step course.world.environment (.release orphaned)).client
        (.released orphaned known) := by
  obtain ⟨-, frontNone, backNone⟩ := atStage.due split rfl
  apply atStage.after_own
  case disposed => exact atStage.disposed
  case farewells =>
    rw [client.farewells_release]
    rfl
  case made => rfl
  case announced => simp [Retirement.next?]
  case underway =>
    rw [frontNone, backNone]
    exact List.Sublist.refl _
  case looked =>
    rintro count isValid ⟨⟩
    exact Or.inr rfl

private theorem AtRetirement.retires (atStage : course.AtRetirement index client stage)
    (live : client.disposed = false) (split : course.underway = front ++ (index, .dispose) :: back) :
    (course.after front back index client.service .dispose
      (client.step course.world.environment .dispose)).AtRetirement index
        (client.step course.world.environment .dispose).client (.retired client.pendingCount) := by
  have step_eq := Client.step_dispose live course.world.environment
  obtain rfl : stage = .inUse := by
    have inUse := atStage.disposed
    rw [live] at inUse
    cases stage <;> first | rfl | cases inUse
  have none : retiring front index = [] ∧ retiring back index = [] := by
    have within := atStage.underway
    rw [split, retiring_append, retiring_cons_of_not (Or.inr rfl)] at within
    exact List.append_eq_nil_iff.mp (List.sublist_nil.mp within)
  apply atStage.after_own
  case disposed => rw [step_eq]; rfl
  case farewells =>
    unfold Client.turn
    rw [step_eq]
    rfl
  case made => rfl
  case announced =>
    rintro due ⟨⟩
    exact Or.inl (by rw [step_eq])
  case underway =>
    rw [none.1, none.2, retiring_next, step_eq]
    exact List.Sublist.refl _
  case looked => simp [Retirement.looked?]

private theorem AtRetirement.stays (atStage : course.AtRetirement index client stage)
    (split : course.underway = front ++ (index, phase) :: back)
    (notRetiring : phase.isRetiring = false) (late : phase = .dispose → client.disposed = true) :
    (course.after front back index client.service phase
      (client.step course.world.environment phase)).AtRetirement index
        (client.step course.world.environment phase).client stage := by
  have stays := client.stays_step course.world.environment notRetiring late
  obtain ⟨descriptor, transport, disposed⟩ := stays.client_eq
  apply atStage.after_own
  case disposed => rw [disposed, atStage.disposed]
  case farewells =>
    rw [client.farewells_of_not_retiring _ index notRetiring, List.append_nil,
      farewells_congr stage descriptor transport]
  case made =>
    have nothing : (client.turn course.world.environment index phase).retiring = [] :=
      if_neg (by simp [Client.turn, notRetiring])
    rw [nothing, List.append_nil]
  case announced => exact fun due before => Or.inr before
  case underway =>
    have within := atStage.underway
    rw [split, retiring_append, retiring_cons_of_not (Or.inr notRetiring)] at within
    rw [retiring_next, stays.next]
    exact within
  case looked => exact fun orphaned known before => Or.inr before

/-- Every step of the client itself leaves it at a stage. -/
private theorem AtRetirement.proceed_own (atStage : course.AtRetirement index client stage)
    (split : course.underway = front ++ (index, phase) :: back) :
    ∃ later, (course.after front back index client.service phase
      (client.step course.world.environment phase)).AtRetirement index
        (client.step course.world.environment phase).client later := by
  by_cases retires : phase.isRetiring = true
  · obtain ⟨due, -, -⟩ := atStage.due split retires
    cases stage with
    | inUse | released => cases due
    | retired orphaned =>
      cases due
      exact ⟨_, atStage.signsOff split⟩
    | signedOff orphaned known =>
      cases due
      exact ⟨_, atStage.releases split⟩
  · have notRetiring : phase.isRetiring = false := by simpa using retires
    by_cases goes : phase = .dispose ∧ client.disposed = false
    · obtain ⟨rfl, live⟩ := goes
      exact ⟨_, atStage.retires live split⟩
    · refine ⟨stage, atStage.stays split notRetiring fun isDispose => ?_⟩
      simpa [isDispose] using goes

/-- A step of another client changes nothing. -/
private theorem AtRetirement.proceed_other {other : ClientId} {known : Client κ}
    (atStage : course.AtRetirement other known stage) (different : other ≠ index)
    (split : course.underway = front ++ (index, phase) :: back) (service : String)
    (step : Step κ) :
    (course.after front back index service phase step).AtRetirement other known stage := by
  have same : ∀ {α : Type} (account : Turn κ → List α),
      shared (course.after front back index service phase step).turns (· = other) account
        = shared course.turns (· = other) account := by
    intro α account
    refine (shared_append _ _ _ _).trans ?_
    rw [if_neg (by simp [Ne.symm different]), List.append_nil]
  constructor
  case disposed => exact atStage.disposed
  case farewells => rw [same, atStage.farewells]
  case made => rw [same, atStage.made]
  case announced =>
    intro due next
    obtain ⟨turn, member, own, goesOn⟩ := atStage.announced due next
    exact ⟨turn, List.mem_append_left _ member, own, goesOn⟩
  case underway =>
    have within := atStage.underway
    rw [split, retiring_append, retiring_cons_of_not (Or.inl (Ne.symm different))] at within
    have nothing : retiring (step.next.phase?.map fun phase => (index, phase)).toList other = [] := by
      cases step.next.phase? with
      | none => rfl
      | some later => exact retiring_cons_of_not (Or.inl (Ne.symm different)) []
    unfold Course.after
    rw [retiring_append, retiring_append, nothing, List.append_nil]
    exact within
  case looked =>
    intro orphaned isValid seen
    obtain ⟨turn, member, own, signed, saw⟩ := atStage.looked orphaned isValid seen
    exact ⟨turn, List.mem_append_left _ member, own, signed, saw⟩

/-- At every point of a course, every client is in use or at some stage of going out of use. -/
theorem Leads.retires {world : World κ} (leads : (opening world).Leads course)
    (fresh : world.IsFresh) : course.Retires := by
  apply leads.keeps
  case initial =>
    intro index client found
    have unused := (fresh client (List.mem_of_getElem? found)).2.2
    exact ⟨.inUse, unused, rfl, rfl, by simp [Retirement.next?], List.Sublist.refl _,
      by simp [Retirement.looked?]⟩
  case kept =>
    intro course next retires move index client found
    cases move with
    | enter entered phase opening =>
      obtain ⟨stage, atStage⟩ := retires index client found
      refine ⟨stage, atStage.disposed, atStage.farewells, atStage.made, atStage.announced, ?_,
        atStage.looked⟩
      rw [retiring_cons_of_not (Or.inr (Phase.not_retiring_of_opening opening))]
      exact atStage.underway
    | outside act =>
      obtain ⟨stage, atStage⟩ := retires index client found
      exact ⟨stage, atStage.disposed, atStage.farewells, atStage.made, atStage.announced,
        atStage.underway, atStage.looked⟩
    | abandon front back acting phase split interruptible =>
      obtain ⟨stage, atStage⟩ := retires index client found
      refine ⟨stage, atStage.disposed, atStage.farewells, atStage.made, atStage.announced, ?_,
        atStage.looked⟩
      apply List.Sublist.trans _ atStage.underway
      rw [split]
      unfold retiring
      apply List.Sublist.map
      apply List.Sublist.filter
      exact List.Sublist.append (List.Sublist.refl front) (List.sublist_cons_self _ back)
    | proceed front back acting phase turn world split made =>
      obtain ⟨actor, foundActor, rfl, rfl⟩ := World.step?_eq_some made
      rcases (World.getElem?_set_client foundActor).mp found with ⟨rfl, rfl⟩ | ⟨different, before⟩
      · obtain ⟨stage, atStage⟩ := retires index actor foundActor
        exact atStage.proceed_own split
      · obtain ⟨stage, atStage⟩ := retires index client before
        exact ⟨stage, atStage.proceed_other different split _ _⟩

/-! ### What the hosts and the transports have seen -/

variable {world : World κ}

theorem Leads.registered_eq {start : Course κ} (leads : start.Leads course) (host : HostId)
    (index : ClientId) : course.world.registered host index = start.world.registered host index :=
  leads.any_eq (fun client environment phase =>
    congrArg (· == host) (client.exit_step environment phase).host_eq) index

private theorem farewells_apply (environment : Environment) (act : Outside) :
    (∀ transport, (act.apply environment).released? transport = environment.released? transport)
    ∧ ∀ host, ((act.apply environment).host host).deregistered
      = (environment.host host).deregistered := by
  have kept : ∀ (changed transport : TransportId) (after : Transport.Loopback),
      after.releases = (environment.transport changed).releases →
        (environment.setTransport changed after).released? transport
          = environment.released? transport := by
    intro changed transport after same
    have grows : after.releases = (environment.transport changed).releases + 0 := same
    rw [environment.released?_setTransport changed transport grows]
    simp
  cases act with
  | failNext changed failure | forceNext changed sequence =>
    exact ⟨fun transport => kept changed transport _ rfl, fun _ => rfl⟩
  | passTime span =>
    refine ⟨?_, fun _ => rfl⟩
    apply Environment.released?_congr
    exact environment.sleep_transports span .running
  | invalidate invalid =>
    exact ⟨fun _ => rfl, fun host =>
      environment.host_setHost_congr Host.deregistered invalid host rfl⟩
  | _ => exact ⟨fun _ => rfl, fun _ => rfl⟩

/-- A transport counts the releases by its clients, and a host records its clients that sign off, behind
what they did before. -/
theorem Leads.farewells_eq (leads : (opening world).Leads course) :
    (∀ transport, course.world.environment.released? transport
      = (world.environment.released? transport).map
          (· + (shared course.turns (world.uses transport) Turn.releases).length))
    ∧ ∀ host, (course.world.environment.host host).deregistered
      = (world.environment.host host).deregistered
        ++ shared course.turns (world.registered host) Turn.deregistrations := by
  induction leads with
  | here => simp [opening, shared]
  | @move course next leads move inductionHypothesis =>
    obtain ⟨released, deregistered⟩ := inductionHypothesis
    cases move with
    | enter | abandon => exact ⟨released, deregistered⟩
    | outside act =>
      obtain ⟨sameReleases, sameRecord⟩ := farewells_apply course.world.environment act
      exact ⟨fun transport => (sameReleases transport).trans (released transport),
        fun host => (sameRecord host).trans (deregistered host)⟩
    | proceed front back acting phase turn after split made =>
      obtain ⟨client, found, rfl, rfl⟩ := World.step?_eq_some made
      obtain ⟨grown, recorded⟩ := client.farewells_step course.world.environment acting phase
      refine ⟨?_, ?_⟩
      · intro transport
        have own : (client.transport = transport) = (world.uses transport acting = true) := by
          rw [← leads.uses_eq]
          simp [World.uses, found]
        refine (grown transport).trans ?_
        rw [released, Option.map_map]
        refine congrArg (Option.map · _) (funext fun count => ?_)
        rw [shared_append, List.length_append, Function.comp_apply, Nat.add_assoc]
        by_cases uses : world.uses transport acting = true <;> simp [own, uses, Client.turn]
      · intro host
        have same : course.world.registered host acting = world.registered host acting :=
          leads.registered_eq host acting
        have own : (client.host = host) = (world.registered host acting = true) := by
          rw [← same]
          simp [World.registered, found]
        refine (recorded host).trans ?_
        rw [deregistered, shared_append, List.append_assoc]
        by_cases registered : world.registered host acting = true <;>
          simp [own, registered, Client.turn]

/-- The releases are among the farewells. -/
theorem releases_eq {account : List (Turn κ)} {index : ClientId} {farewells : List Farewell}
    (said : shared account (· = index) Turn.farewells = farewells) :
    shared account (· = index) Turn.releases
      = farewells.filterMap fun farewell =>
          match farewell with
          | .released transport => some transport
          | _ => none := by
  rw [← said]
  exact List.filterMap_flatMap.symm

private theorem length_releases {account : List (Turn κ)} {index : ClientId}
    (farewells : shared account (· = index) Turn.farewells = stage.farewells client)
    (settled : (stage.next? : Option (Phase κ)) = none) :
    (shared account (· = index) Turn.releases).length = if stage.isDisposed then 1 else 0 := by
  rw [releases_eq farewells]
  cases stage with
  | retired | signedOff => cases settled
  | inUse => rfl
  | released orphaned known => cases known <;> rfl

end Course

/-- The clients on a transport that are out of use. -/
def World.disposed (world : World κ) (transport : TransportId) : Finset ClientId :=
  (world.sharing transport).filter fun index => (world.clients[index]?).any (·.disposed) = true

namespace Course

variable {course : Course κ} {world : World κ}

/-- If no client is on its way out of use, a transport was released by just its clients that are. -/
theorem Leads.released?_eq_card (leads : (opening world).Leads course) (fresh : world.IsFresh)
    {transport : TransportId} (unused : world.environment.released? transport = some 0)
    (settled : ∀ index client stage, course.world.clients[index]? = some client →
      course.AtRetirement index client stage → (stage.next? : Option (Phase κ)) = none) :
    course.world.environment.released? transport = some (course.world.disposed transport).card := by
  have users : world.uses transport = course.world.uses transport :=
    funext fun index => (leads.uses_eq transport index).symm
  rw [leads.farewells_eq.1, unused, users, length_shared, World.disposed, Finset.card_filter]
  refine congrArg some ((Nat.zero_add _).trans (Finset.sum_congr rfl fun index shares => ?_))
  have used := World.mem_sharing.mp shares
  unfold World.uses at used
  cases found : course.world.clients[index]? with
  | none =>
    rw [found] at used
    cases used
  | some client =>
    obtain ⟨stage, atStage⟩ := leads.retires fresh index client found
    rw [length_releases atStage.farewells (settled index client stage found atStage),
      ← atStage.disposed]
    rfl

end Course

end Correlator
