import Correlator.Proofs.Course.Basic
import Correlator.Session.Machine

/-!
Contract: the ways in which a single task of a session can end.

Owns: what each kind of task does to the clients, to the environment and to the rest of the agenda.

Does not own: runs of many tasks (`Correlator.Proofs.Session.Run`).
-/

set_option autoImplicit false

namespace Correlator.Session

def Trail.turns (trail : Trail) : List (Turn Program) :=
  trail.filterMap fun occurrence =>
    match occurrence with
    | .turn turn => some turn
    | _ => none

namespace Task

/-- Goes on with an operation of a client. -/
def operation? : Task → Option (ClientId × Phase Program)
  | .advance client phase | .step client phase => some (client, phase)
  | _ => none

/-- The callback that a task runs, with its future. -/
def call? : Task → Option (Future × Program)
  | .callBack future callback => some (future, callback)
  | _ => none

/-- Completes a request past all clients. -/
def isDirect : Task → Bool
  | .perform (.resolveDirect _ _ _) _ => true
  | _ => false

/-- Neither a callback nor the middle of an operation. -/
def isFresh : Task → Bool
  | .advance _ phase | .step _ phase => phase.isOpening
  | .callBack _ _ => false
  | _ => true

end Task

def underway (tasks : List Task) : List (ClientId × Phase Program) :=
  tasks.filterMap Task.operation?

/-- What remains of an operation after a turn. -/
def following (client : ClientId) : Next Program → List Task
  | .goesOn phase => [.advance client phase]
  | .callsBack future callback =>
    [.callBack future callback, .reply (.answered (.ok .done))]
  | .returned _ | .failed _ => []

namespace Machine

/-- The tasks of a program neither are nor contain the middle of an operation. -/
theorem isFresh_of_mem_tasks {program : Program} {own : Option Future} {task : Task}
    (member : task ∈ tasks program own) : task.isFresh = true ∧ task.operation? = none := by
  unfold tasks at member
  obtain ⟨op, -, inside⟩ := List.mem_flatMap.mp member
  simp only [List.mem_cons, List.not_mem_nil, or_false] at inside
  rcases inside with rfl | rfl <;> exact ⟨rfl, rfl⟩

/-- The clients and the environment stay as they are, and operations may begin. -/
structure Begins (machine next : Machine) : Prop where
  world_eq : next.session.world = machine.session.world
  agenda_eq : ∃ fresh, next.agenda = fresh ++ machine.agenda ∧ ∀ task ∈ fresh, task.isFresh = true

theorem Begins.quiet {machine next : Machine}
    (world_eq : next.session.world = machine.session.world)
    (agenda_eq : next.agenda = machine.agenda) : machine.Begins next :=
  ⟨world_eq, [], agenda_eq, by simp⟩

theorem Begins.push {machine next : Machine}
    (world_eq : next.session.world = machine.session.world)
    (agenda_eq : next.agenda = machine.agenda) {fresh : List Task}
    (areFresh : ∀ task ∈ fresh, task.isFresh = true) : machine.Begins (next.push fresh) :=
  ⟨world_eq, fresh, congrArg (fresh ++ ·) agenda_eq, areFresh⟩

private theorem recordAll_world (session : Session) (futures : List Future) :
    (recordAll session futures).2.world = session.world := by
  unfold recordAll
  generalize futures.mergeSort (fun left right => left.sequence ≤ right.sequence) = sorted
  suffices kept : ∀ (recorded : List (Nat × Sequence)) (session : Session),
      (sorted.foldl (fun (state : List (Nat × Sequence) × Session) future =>
        (state.1 ++ [((state.2.record future).1, future.sequence)], (state.2.record future).2))
        (recorded, session)).2.world = session.world from kept [] session
  induction sorted with
  | nil => exact fun _ _ => rfl
  | cons future rest inductionHypothesis =>
    exact fun recorded session => inductionHypothesis _ _

/-- The ways in which a task can end, taken from an agenda of which the rest is left. -/
inductive Outcome (machine : Machine) : Task → Result → Prop where
  /-- Operations may begin, and nothing happens to clients or environment. -/
  | begins {task : Task} {occurrences : Trail} {next : Machine}
      (idle : task.operation? = none) (uncalled : task.call? = none)
      (silent : occurrences.turns = []) (begins : machine.Begins next) :
      Outcome machine task (occurrences, next)
  /-- The environment changes; a number is queued only where this is asked for. -/
  | acts {task : Task} {next : Machine} (act : Outside)
      (idle : task.operation? = none) (uncalled : task.call? = none)
      (world_eq : next.session.world
        = { machine.session.world with
            environment := act.apply machine.session.world.environment })
      (agenda_eq : next.agenda = machine.agenda)
      (asked : ∀ transport sequence, act = .forceNext transport sequence →
        ∃ own, task = .perform (.forceNext transport sequence) own) :
      Outcome machine task ([], next)
  /-- All that was left to be done is given up. -/
  | breaksOff {task : Task} {next : Machine}
      (idle : task.operation? = none) (uncalled : task.call? = none)
      (world_eq : next.session.world = machine.session.world) (agenda_eq : next.agenda = []) :
      Outcome machine task ([], next)
  /-- A callback runs. -/
  | calls {future : Future} {callback : Program} {occurrences : Trail} {next : Machine}
      (silent : occurrences.turns = [])
      (world_eq : next.session.world = machine.session.world)
      (agenda_eq : next.agenda = tasks callback (some future) ++ machine.agenda) :
      Outcome machine (.callBack future callback) (occurrences, next)
  /-- A program runs before the registry is asked. -/
  | defers {client : ClientId} {purpose : Purpose} {next : Machine} (fresh : List Task)
      (world_eq : next.session.world = machine.session.world)
      (agenda_eq : next.agenda = fresh ++ .step client (.probeQuery purpose) :: machine.agenda)
      (areFresh : ∀ task ∈ fresh, task.isFresh = true ∧ task.operation? = none) :
      Outcome machine (.advance client (.probeQuery purpose)) ([], next)
  /-- There is no such client. -/
  | drops {task : Task} {client : ClientId} {phase : Phase Program} {next : Machine}
      (operation : task.operation? = some (client, phase))
      (unknown : machine.session.world.step? client phase = none)
      (world_eq : next.session.world = machine.session.world)
      (agenda_eq : next.agenda = machine.agenda) :
      Outcome machine task ([], next)
  /-- An operation breaks off in its turn, and all else with it. -/
  | fails {task : Task} {client : ClientId} {phase : Phase Program} {turn : Turn Program}
      {world : World Program} {fault : Fault} {next : Machine}
      (operation : task.operation? = some (client, phase))
      (made : machine.session.world.step? client phase = some (turn, world))
      (failed : turn.next = .failed fault)
      (world_eq : next.session.world = world) (agenda_eq : next.agenda = []) :
      Outcome machine task ([.turn turn], next)
  /-- An operation makes its turn, and a program may run after it. -/
  | turns {task : Task} {client : ClientId} {phase : Phase Program} {turn : Turn Program}
      {world : World Program} {next : Machine} (fresh : List Task)
      (operation : task.operation? = some (client, phase))
      (made : machine.session.world.step? client phase = some (turn, world))
      (world_eq : next.session.world = world)
      (agenda_eq : next.agenda = fresh ++ (following client turn.next ++ machine.agenda))
      (areFresh : ∀ task ∈ fresh, task.isFresh = true ∧ task.operation? = none)
      (asleep : fresh = [] ∨ turn.next.isAside = true) :
      Outcome machine task ([.turn turn], next)

/-! ### Lookups -/

section Lookups

variable (machine : Machine) (own : Option Future) {motive : Result → Prop}
  (answers : ∀ reply, motive ([], machine.answer reply))

include answers

/-- A lookup of a future replies that there is none, or goes on with it. -/
theorem withFuture_cases (reference : FutureRef) {body : Future → Result}
    (found : ∀ future, motive (body future)) : motive (machine.withFuture own reference body) := by
  unfold withFuture
  cases reference with
  | recorded index =>
    dsimp only
    split
    · exact found _
    · exact answers .noFuture
  | own =>
    dsimp only
    split
    · exact found _
    · exact answers .noOwnFuture

theorem withTarget_cases (target : Target) {body : Sequence → Result}
    (found : ∀ sequence, motive (body sequence)) :
    motive (machine.withTarget own target body) := by
  cases target with
  | number sequence => exact found sequence
  | future reference =>
    exact machine.withFuture_cases own answers reference fun future => found future.sequence

/-- A reader that has looked is replied to at once, or after it has slept. -/
theorem patiently_cases (cell : Cell) (timeout : Span) (reader : Reader)
    (sleeps : ∀ reply, motive ([], (machine.withEnvironment
      (machine.session.environment.sleep timeout .running)).answer reply)) :
    motive (machine.patiently cell timeout reader) := by
  unfold patiently
  split
  · split
    · exact sleeps _
    · exact answers .wouldBlock
  · exact answers _

/-- The time on a clock is replied, or everything breaks off. -/
theorem viewTime_cases (elapsed : Span) (reading : Option Moment)
    (breaks : ∀ fault, motive ([], machine.breakOff fault)) :
    motive (machine.viewTime elapsed reading) := by
  cases reading with
  | some now => exact answers _
  | none => exact breaks .clockOutOfRange

end Lookups

/-! ### Series of operations -/

section Series

variable (machine : Machine) {next : Machine}
  (world_eq : next.session.world = machine.session.world)
  (agenda_eq : next.agenda = machine.agenda)

include world_eq agenda_eq

private theorem begins_series (client : ClientId) (total sent accepted : Nat)
    (lastError : Option ClientError) :
    machine.Begins (next.series client total sent accepted lastError) := by
  unfold series
  split
  · exact .push world_eq agenda_eq (by simp [Task.isFresh, Phase.isOpening])
  · exact .quiet world_eq agenda_eq

private theorem begins_race (client : ClientId) (sequence : Sequence) (response : Response)
    (remaining : Nat) (counts : List (String × Nat)) :
    machine.Begins (next.race client sequence response remaining counts) := by
  cases remaining with
  | zero => exact .push world_eq agenda_eq (by simp [Task.isFresh])
  | succ remaining => exact .push world_eq agenda_eq (by simp [Task.isFresh, Phase.isOpening])

private theorem begins_raceSubmit (client : ClientId) (remaining : Nat) (futures : List Future) :
    machine.Begins (next.raceSubmit client remaining futures) := by
  cases remaining with
  | zero =>
    have recorded := (recordAll_world next.session futures).trans world_eq
    refine ⟨recorded, [.leaveThreads, .reply (.raceSubmitted (recordAll next.session futures).1)],
      ?_, by simp [Task.isFresh]⟩
    rw [← agenda_eq]
    rfl
  | succ remaining => exact .push world_eq agenda_eq (by simp [Task.isFresh, Phase.isOpening])

end Series

/-! ### Performing an operation -/

section Perform

variable (machine : Machine) (own : Option Future) (op : Op)

private theorem outcome_answer (reply : Reply) :
    Outcome machine (.perform op own) ([], machine.answer reply) :=
  .begins rfl rfl rfl (.quiet rfl rfl)

private theorem outcome_call (client : ClientId) (phase : Phase Program) (finish : Option Finish)
    (opening : phase.isOpening = true) :
    Outcome machine (.perform op own) (machine.call client phase finish) := by
  unfold call
  split
  · exact machine.outcome_answer own op .unknown
  · refine .begins rfl rfl rfl (.push rfl rfl fun task member => ?_)
    rcases List.mem_cons.mp member with rfl | later
    · exact opening
    · obtain ⟨rest, -, rfl⟩ := Option.map_eq_some_iff.mp (Option.mem_toList.mp later)
      rfl

private theorem outcome_withFuture (reference : FutureRef) {body : Future → Result}
    (outcome : ∀ future, Outcome machine (.perform op own) (body future)) :
    Outcome machine (.perform op own) (machine.withFuture own reference body) :=
  machine.withFuture_cases own (machine.outcome_answer own op) reference outcome

private theorem outcome_viewFuture (reference : FutureRef) (reply : Future → Reply) :
    Outcome machine (.perform op own) (machine.viewFuture own reference reply) :=
  machine.outcome_withFuture own op reference fun future =>
    machine.outcome_answer own op (reply future)

private theorem outcome_viewTime (elapsed : Span) (reading : Option Moment) :
    Outcome machine (.perform op own) (machine.viewTime elapsed reading) :=
  machine.viewTime_cases (machine.outcome_answer own op) elapsed reading fun _ =>
    .breaksOff rfl rfl rfl rfl

private theorem outcome_acts (act : Outside) (reply : Reply)
    (asked : ∀ transport sequence, act = .forceNext transport sequence →
      op = .forceNext transport sequence) :
    Outcome machine (.perform op own)
      ([], (machine.withEnvironment (act.apply machine.session.environment)).answer reply) :=
  .acts act rfl rfl rfl rfl fun transport sequence forces =>
    ⟨own, congrArg (Task.perform · own) (asked transport sequence forces)⟩

private theorem outcome_changeTransport (transport : TransportId)
    (change : Transport.Loopback → Transport.Loopback) (act : Outside)
    (applies : ∀ environment : Environment, act.apply environment
      = environment.setTransport transport (change (environment.transport transport)))
    (asked : ∀ transport sequence, act = .forceNext transport sequence →
      op = .forceNext transport sequence) :
    Outcome machine (.perform op own) (machine.changeTransport transport change) := by
  unfold changeTransport
  dsimp only
  split
  · exact machine.outcome_answer own op .unknown
  next found search =>
    have transport_eq : machine.session.environment.transport transport = found := by
      unfold Environment.transport
      rw [search]
      rfl
    have acted := machine.outcome_acts own op act .nothing asked
    rw [applies, transport_eq] at acted
    exact acted

private theorem outcome_wait (client : ClientId) (timeout : Option Span) (token : Option TokenRef)
    (simple : Bool) (onSleep onCheck : List (Nat × List Op)) :
    Outcome machine (.perform (.wait client timeout token simple onSleep onCheck) own)
      (machine.perform own (.wait client timeout token simple onSleep onCheck)) := by
  unfold perform
  dsimp only
  split
  · refine .begins rfl rfl rfl ⟨rfl, _, rfl, ?_⟩
    simp [Task.isFresh, Phase.isOpening]
  · refine .begins rfl rfl rfl ⟨rfl, _, rfl, ?_⟩
    simp [Task.isFresh, Phase.isOpening]
  · exact machine.outcome_answer own _ .unknown

private theorem outcome_readers (client : ClientId) (future : FutureRef) (readers : Nat)
    (response : Response) :
    Outcome machine (.perform (.readers client future readers response) own)
      (machine.perform own (.readers client future readers response)) := by
  refine machine.outcome_withFuture own _ future fun found => ?_
  split
  · exact machine.outcome_answer own _ .unknown
  · split
    · exact machine.outcome_answer own _ .notPending
    · exact machine.outcome_call own _ client (.complete found.sequence response)
        (some (.readers found readers)) rfl

private theorem outcome_token (parent : Option TokenRef) :
    Outcome machine (.perform (.token parent) own) (machine.perform own (.token parent)) := by
  unfold perform
  dsimp only
  cases parent with
  | none => exact .acts .makeToken rfl rfl rfl rfl nofun
  | some reference =>
    dsimp only
    cases known : machine.session.token? reference with
    | none => exact machine.outcome_answer own _ .unknown
    | some token =>
      cases shared : machine.session.environment.tokens.share? token with
      | none =>
        simp only [Option.bind_some, shared]
        exact machine.outcome_answer own _ .unknown
      | some share =>
        simp only [Option.bind_some, shared]
        refine .acts (.shareToken token) rfl rfl ?_ rfl nofun
        unfold Outside.apply
        change _ = { machine.session.world with
          environment := { machine.session.environment with
            tokens := ((machine.session.environment.tokens.share? token).map Prod.snd).getD
              machine.session.environment.tokens } }
        rw [shared]
        rfl

private theorem outcome_cancelToken (reference : TokenRef) :
    Outcome machine (.perform (.cancelToken reference) own)
      (machine.perform own (.cancelToken reference)) := by
  unfold perform
  dsimp only
  split
  · exact machine.outcome_answer own _ .unknown
  next token known => exact machine.outcome_acts own _ (.cancelToken token) _ nofun

theorem outcome_perform (keeps : (Task.perform op own).isDirect = false) :
    Outcome machine (.perform op own) (machine.perform own op) := by
  cases op with
  | submit client request callback => exact machine.outcome_call own _ client _ _ rfl
  | submitMany client count =>
    unfold perform
    dsimp only
    split
    · exact machine.outcome_answer own _ .unknown
    · exact .begins rfl rfl rfl (machine.begins_series rfl rfl client count 0 0 none)
  | complete client target response =>
    exact machine.withTarget_cases own (machine.outcome_answer own _) target fun sequence =>
      machine.outcome_call own _ client _ _ rfl
  | cancel client future =>
    exact machine.outcome_withFuture own _ future fun future =>
      machine.outcome_call own _ client _ _ rfl
  | pruneAll client | pruneStale client | isAvailable client | dispose client =>
    exact machine.outcome_call own _ client _ _ rfl
  | pruneOlder client cutoff => exact machine.outcome_call own _ client _ _ rfl
  | wait client timeout token simple onSleep onCheck =>
    exact machine.outcome_wait own client timeout token simple onSleep onCheck
  | isPending client target =>
    exact machine.withTarget_cases own (machine.outcome_answer own _) target fun sequence =>
      machine.outcome_answer own _ _
  | pendingCount client | describe client | describeTally client | options client =>
    exact machine.outcome_answer own _ _
  | future future | get future =>
    exact machine.outcome_viewFuture own _ future _
  | cloneFuture future =>
    exact machine.outcome_withFuture own _ future fun found => .begins rfl rfl rfl (.quiet rfl rfl)
  | same left right =>
    exact machine.outcome_withFuture own _ left fun left =>
      machine.outcome_viewFuture own _ right _
  | getWithin future timeout =>
    exact machine.outcome_withFuture own _ future fun future =>
      machine.patiently_cases (machine.outcome_answer own _) _ timeout _ fun reply =>
        machine.outcome_acts own _ (.passTime timeout) reply nofun
  | poll future waker =>
    exact machine.outcome_withFuture own _ future fun future =>
      machine.outcome_acts own _ (.poll future waker) _ nofun
  | resolveDirect future value callback => cases keeps
  | readers client future readers response =>
    exact machine.outcome_readers own client future readers response
  | race client future threads response =>
    refine machine.outcome_withFuture own _ future fun future => ?_
    split
    · exact machine.outcome_answer own _ .unknown
    · exact .begins rfl rfl rfl
        (machine.begins_race rfl rfl client future.sequence response threads [])
  | raceSubmit client threads each =>
    unfold perform
    dsimp only
    split
    · exact machine.outcome_answer own _ .unknown
    · exact .begins rfl rfl rfl (machine.begins_raceSubmit rfl rfl client (threads * each) [])
  | failNext transport failure =>
    exact machine.outcome_changeTransport own _ transport _ (.failNext transport failure)
      (fun _ => rfl) nofun
  | forceNext transport sequence =>
    refine machine.outcome_changeTransport own _ transport _ (.forceNext transport sequence)
      (fun _ => rfl) fun known number forces => ?_
    obtain ⟨rfl, rfl⟩ := Outside.forceNext.inj forces
    rfl
  | setAvailable registry value =>
    exact machine.outcome_acts own _ (.setAvailable registry value) .nothing nofun
  | invalidate host => exact machine.outcome_acts own _ (.invalidate host) .nothing nofun
  | advance clock span => exact machine.outcome_acts own _ (.advance clock span) .nothing nofun
  | sent transport | sentCount transport | releaseCount transport =>
    exact machine.outcome_answer own _ _
  | deregistered host => exact machine.outcome_answer own _ _
  | now clock =>
    -- Opened by name: to find it by computation is to count to the end of time.
    unfold perform
    exact machine.outcome_viewTime own _ _ _
  | token parent => exact machine.outcome_token own parent
  | cancelToken token => exact machine.outcome_cancelToken own token
  | isCancelled token => exact machine.outcome_answer own _ _
  | raise message => exact .breaksOff rfl rfl rfl rfl

end Perform

/-! ### All tasks -/

private theorem outcome_finish (machine : Machine) (finish : Finish) :
    Outcome machine (.finish finish) ([], machine.finish finish) := by
  refine .begins rfl rfl rfl ?_
  cases finish with
  | submission =>
    unfold Machine.finish
    dsimp only
    split
    · exact .quiet rfl rfl
    · exact .quiet rfl rfl
  | wait simple =>
    unfold Machine.finish
    dsimp only
    split
    · split
      · exact .quiet rfl rfl
      · exact .quiet rfl rfl
    · exact .quiet rfl rfl
  | series client total sent accepted lastError =>
    unfold Machine.finish
    dsimp only
    split
    next future answered =>
      exact @begins_series machine { machine with session := (machine.session.record future).2 }
        rfl rfl _ _ _ _ _
    · exact machine.begins_series rfl rfl _ _ _ _ _
    · exact .quiet rfl rfl
  | readers future readers =>
    unfold Machine.finish
    dsimp only
    split
    · exact .quiet rfl rfl
    · exact .quiet rfl rfl
  | race client sequence response remaining counts =>
    unfold Machine.finish
    dsimp only
    split
    · exact machine.begins_race rfl rfl _ _ _ _ _
    · exact .quiet rfl rfl
  | raceSubmit client remaining futures =>
    unfold Machine.finish
    dsimp only
    split
    · exact machine.begins_raceSubmit rfl rfl _ _ _
    · exact machine.begins_raceSubmit rfl rfl _ _ _

/-- Only a step that concerns no request sleeps. -/
theorem isAside_of_slept {client : Client Program} {environment : Environment}
    {phase : Phase Program} {step : Step Program}
    (exit : client.Exit environment phase step) {clock : ClockChoice} {nap : Span}
    (slept : Effect.slept clock nap ∈ step.effects) : step.next.isAside = true := by
  cases exit with
  | aside isAside client_eq cells_eq effects next => exact next
  | _ => simp at slept

private theorem outcome_turn {machine next : Machine} {task : Task} {client : ClientId}
    {phase : Phase Program} {turn : Turn Program} {world : World Program} {slept : Bool}
    (operation : task.operation? = some (client, phase))
    (made : machine.session.world.step? client phase = some (turn, world))
    (world_eq : next.session.world = world)
    (agenda_eq : next.agenda = following client turn.next ++ machine.agenda)
    (aside : slept = true → turn.next.isAside = true) :
    Outcome machine task ([.turn turn], if slept then next.afterSleep else next) := by
  cases slept with
  | false => exact .turns [] operation made world_eq agenda_eq (by simp) (Or.inl rfl)
  | true =>
    rw [if_pos rfl]
    unfold afterSleep
    split
    · exact .turns [] operation made world_eq agenda_eq (by simp) (Or.inl rfl)
    next hooks outer _ =>
      exact .turns (tasks (programAt hooks.onSleep (hooks.sleeps + 1)) none) operation made world_eq
        (congrArg _ agenda_eq) (fun task member => isFresh_of_mem_tasks member)
        (Or.inr (aside rfl))

private theorem outcome_step (machine : Machine) {task : Task} {client : ClientId}
    {phase : Phase Program} (operation : task.operation? = some (client, phase)) :
    Outcome machine task (machine.step client phase) := by
  unfold step
  split
  next unknown => exact .drops operation unknown rfl rfl
  next turn world made =>
    have aside : ∀ clock nap, Effect.slept clock nap ∈ turn.effects →
        turn.next.isAside = true := by
      obtain ⟨known, -, rfl, -⟩ := World.step?_eq_some made
      intro clock nap slept
      exact isAside_of_slept (known.exit_step machine.session.world.environment phase) slept
    cases next : turn.next with
    | failed fault =>
      dsimp only
      split <;> exact .fails operation made next rfl rfl
    | goesOn later | callsBack future callback | returned result =>
      refine outcome_turn operation made rfl (by rw [next]; rfl) fun slept => ?_
      obtain ⟨effect, member, matched⟩ := List.any_eq_true.mp slept
      split at matched
      next clock nap => exact aside (.virtual clock) nap member
      next => cases matched

private theorem outcome_beforeQuery (machine : Machine) (client : ClientId) (purpose : Purpose) :
    Outcome machine (.advance client (.probeQuery purpose))
      ([], (machine.push [.step client (.probeQuery purpose)]).beforeQuery) := by
  unfold beforeQuery
  split
  · exact .defers [] rfl rfl (by simp)
  next hooks outer _ =>
    exact .defers (tasks (programAt hooks.onCheck (hooks.checks + 1)) none) rfl rfl
      fun task member => isFresh_of_mem_tasks member

/-- A task other than the completion of a request past all clients ends in one of the listed
ways. -/
theorem outcome_carryOut (machine : Machine) {task : Task} (keeps : task.isDirect = false) :
    Outcome machine task (machine.carryOut task) := by
  cases task with
  | perform op own => exact machine.outcome_perform own op keeps
  | report op => exact .begins rfl rfl rfl (.quiet rfl rfl)
  | advance client phase =>
    cases phase with
    | probeQuery purpose => exact machine.outcome_beforeQuery client purpose
    | _ => exact machine.outcome_step rfl
  | step client phase => exact machine.outcome_step rfl
  | callBack future callback => exact .calls rfl rfl rfl
  | reply reply => exact .begins rfl rfl rfl (.quiet rfl rfl)
  | finish finish => exact machine.outcome_finish finish
  | closeHooks => exact .begins rfl rfl rfl (.quiet rfl rfl)
  | leaveThreads => exact .begins rfl rfl rfl (.quiet rfl rfl)

/-- A task brings no turn, or the one of the operation that it goes on with. -/
theorem Outcome.turns_eq {machine : Machine} {task : Task} {result : Result}
    (outcome : Outcome machine task result) :
    Trail.turns result.1 = []
      ∨ ∃ turn world, Trail.turns result.1 = [turn]
        ∧ task.operation? = some (turn.client, turn.phase)
        ∧ machine.session.world.step? turn.client turn.phase = some (turn, world) := by
  cases outcome with
  | begins idle uncalled silent begins => exact Or.inl silent
  | calls silent world_eq agenda_eq => exact Or.inl silent
  | acts | breaksOff | defers | drops => exact Or.inl rfl
  | fails operation made | turns fresh operation made =>
    obtain ⟨client, found, rfl, rfl⟩ := World.step?_eq_some made
    exact Or.inr ⟨_, _, rfl, operation, made⟩

end Machine

end Correlator.Session
