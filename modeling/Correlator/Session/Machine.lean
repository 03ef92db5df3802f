import Correlator.Session.Basic
import Correlator.Session.Reply

/-!
Contract: the running of operations, with the programs that they call back into.

Owns: the agenda of what is still to be done, the order in which callbacks, programs inside waits and
the rest of an operation follow each other, and the end of all of it when something breaks off.

Does not own: the single steps of clients (`Correlator.Client.Operation`).
-/

set_option autoImplicit false

namespace Correlator.Session

/-- The programs to run inside a wait, with the number of sleeps and of queries so far. -/
structure Hooks where
  sleeps : Nat := 0
  checks : Nat := 0
  onSleep : List (Nat × Program)
  onCheck : List (Nat × Program)
deriving Repr

/-- The program under a number; the empty one if there is none. -/
def programAt (programs : List (Nat × Program)) (number : Nat) : Program :=
  ((programs.find? (·.1 == number)).map (·.2)).getD []

/-- What remains to be done with the answer of a client before it is the reply to an operation. -/
inductive Finish where
  /-- Records the future of a request that is now pending. -/
  | submission
  /-- Keeps only whether the service is there, if no more is wanted. -/
  | wait (simple : Bool)
  /-- Goes on with a series of requests. -/
  | series (client : ClientId) (total sent accepted : Nat) (lastError : Option ClientError)
  /-- Lets readers read. -/
  | readers (future : Future) (readers : Nat)
  /-- Goes on with a series of responses to one request. -/
  | race (client : ClientId) (sequence : Sequence) (response : Response) (remaining : Nat)
    (counts : List (String × Nat))
  /-- Goes on with a series of requests whose futures are recorded by number at its end. -/
  | raceSubmit (client : ClientId) (remaining : Nat) (futures : List Future)
deriving Repr

inductive Task where
  /-- Begins an operation, inside a callback with the future it runs with. -/
  | perform (op : Op) (own : Option Future)
  /-- Notes the reply to an operation in a program. -/
  | report (op : Op)
  /-- Goes on with an operation of a client. -/
  | advance (client : ClientId) (phase : Phase Program)
  /-- The same, once the program that comes before the step has run. -/
  | step (client : ClientId) (phase : Phase Program)
  | callBack (future : Future) (callback : Program)
  | reply (reply : Reply)
  | finish (finish : Finish)
  /-- Ends the wait that runs its programs. -/
  | closeHooks
  | leaveThreads
deriving Repr

/-- A session with work to do: the waits under way, the innermost first, what is still to be done,
and the last reply. -/
structure Machine where
  session : Session
  hooks : List Hooks := []
  agenda : List Task
  reply : Reply := .nothing
deriving Repr

namespace Machine

def tasks (program : Program) (own : Option Future) : List Task :=
  program.flatMap fun op => [.perform op own, .report op]

def push (machine : Machine) (tasks : List Task) : Machine :=
  { machine with agenda := tasks ++ machine.agenda }

def answer (machine : Machine) (reply : Reply) : Machine := { machine with reply }

def withEnvironment (machine : Machine) (environment : Environment) : Machine :=
  { machine with session := machine.session.withEnvironment environment }

/-- Breaks off: nothing is left to be done. -/
def breakOff (machine : Machine) (fault : Fault) : Machine :=
  { machine with hooks := [], agenda := [], reply := .broke fault }

/-- What a task brings: things to note, and the machine without it. -/
abbrev Result := List Occurrence × Machine

/-- Begins an operation of a client, and then does something with its answer. -/
def call (machine : Machine) (client : ClientId) (phase : Phase Program)
    (finish : Option Finish) : Result :=
  match machine.session.client? client with
  | none => ([], machine.answer .unknown)
  | some _ => ([], machine.push (.advance client phase :: (finish.map Task.finish).toList))

/-- Does something with the future that a reference means. -/
def withFuture (machine : Machine) (own : Option Future) (reference : FutureRef)
    (body : Future → Result) : Result :=
  match reference with
  | .recorded index =>
    match machine.session.futures[index]? with
    | some future => body future
    | none => ([], machine.answer .noFuture)
  | .own =>
    match own with
    | some future => body future
    | none => ([], machine.answer .noOwnFuture)

/-- Does something with the number of the request that a target means. -/
def withTarget (machine : Machine) (own : Option Future) (target : Target)
    (body : Sequence → Result) : Result :=
  match target with
  | .number sequence => body sequence
  | .future reference => machine.withFuture own reference fun future => body future.sequence

def view (machine : Machine) (client : ClientId) (reply : Client Program → Reply) : Result :=
  ([], machine.answer ((machine.session.client? client).elim .unknown reply))

def viewTransport (machine : Machine) (transport : TransportId)
    (reply : Transport.Loopback → Reply) : Result :=
  ([], machine.answer
    ((machine.session.environment.transports[transport]?).elim .unknown reply))

def changeTransport (machine : Machine) (transport : TransportId)
    (change : Transport.Loopback → Transport.Loopback) : Result :=
  let environment := machine.session.environment
  match environment.transports[transport]? with
  | none => ([], machine.answer .unknown)
  | some found =>
    ([], (machine.withEnvironment (environment.setTransport transport (change found))).answer
      .nothing)

def viewFuture (machine : Machine) (own : Option Future) (reference : FutureRef)
    (reply : Future → Reply) : Result :=
  machine.withFuture own reference fun future => ([], machine.answer (reply future))

/-- Replies the time on a clock that was read, or breaks off where the present is out of range. -/
def viewTime (machine : Machine) (elapsed : Span) : Option Moment → Result
  | some _ => ([], machine.answer (.span elapsed))
  | none => ([], machine.breakOff .clockOutOfRange)

/-- The longest time that a reader of an empty cell is let wait; it is real time that passes. -/
def patience : Span := .ofMillis 5

/-- Lets a reader that has looked into a cell sleep until its deadline, if it has to, and the session has
the patience for that. -/
def patiently (machine : Machine) (cell : Cell) (timeout : Span) (reader : Reader) : Result :=
  match reader with
  | .sleeps (some _) =>
    if timeout ≤ patience then
      ([], (machine.withEnvironment (machine.session.environment.sleep timeout .running)).answer
        (.ofReader (reader.step cell true)))
    else ([], machine.answer .wouldBlock)
  | _ => ([], machine.answer (.ofReader reader))

/-- Sends the next request of a series, or ends the series. -/
def series (machine : Machine) (client : ClientId) (total sent accepted : Nat)
    (lastError : Option ClientError) : Machine :=
  if sent < total then
    machine.push
      [.advance client (.submit ("req-" ++ toString sent) none),
        .finish (.series client total (sent + 1) accepted lastError)]
  else machine.answer (.submittedMany accepted lastError)

/-- Delivers the next response of a race, or ends the race. -/
def race (machine : Machine) (client : ClientId) (sequence : Sequence) (response : Response)
    (remaining : Nat) (counts : List (String × Nat)) : Machine :=
  match remaining with
  | 0 => machine.push [.leaveThreads, .reply (.raced counts)]
  | remaining + 1 =>
    machine.push
      [.advance client (.complete sequence response),
        .finish (.race client sequence response remaining counts)]

/-- Records futures in the order of their numbers. -/
def recordAll (session : Session) (futures : List Future) : List (Nat × Sequence) × Session :=
  (futures.mergeSort fun left right => left.sequence ≤ right.sequence).foldl
    (fun (recorded, session) future =>
      let (index, session) := session.record future
      (recorded ++ [(index, future.sequence)], session))
    ([], session)

/-- Sends the next request of several threads, or ends their work. -/
def raceSubmit (machine : Machine) (client : ClientId) (remaining : Nat) (futures : List Future) :
    Machine :=
  match remaining with
  | 0 =>
    let (recorded, session) := recordAll machine.session futures
    { machine with session }.push [.leaveThreads, .reply (.raceSubmitted recorded)]
  | remaining + 1 =>
    machine.push
      [.advance client (.submit ("race-" ++ toString remaining) none),
        .finish (.raceSubmit client remaining futures)]

def perform (machine : Machine) (own : Option Future) (op : Op) : Result :=
  let session := machine.session
  let environment := session.environment
  match op with
  | .submit client request callback =>
    machine.call client (.submit request callback) (some .submission)
  | .submitMany client count =>
    match session.client? client with
    | none => ([], machine.answer .unknown)
    | some _ => ([], machine.series client count 0 0 none)
  | .complete client target response =>
    machine.withTarget own target fun sequence =>
      machine.call client (.complete sequence response) none
  | .cancel client future =>
    machine.withFuture own future fun future => machine.call client (.cancel future) none
  | .pruneAll client => machine.call client .pruneAll none
  | .pruneOlder client cutoff => machine.call client (.pruneOlder cutoff) none
  | .pruneStale client => machine.call client .pruneStale none
  | .isAvailable client => machine.call client .isAvailable none
  | .dispose client => machine.call client .dispose none
  | .wait client timeout token simple onSleep onCheck =>
    let heeded := if simple then none else token
    match session.client? client, heeded.map session.token? with
    | some _, none =>
      ([], { machine with hooks := { onSleep, onCheck } :: machine.hooks }.push
        [.advance client (.wait timeout none), .closeHooks, .finish (.wait simple)])
    | some _, some (some token) =>
      ([], { machine with hooks := { onSleep, onCheck } :: machine.hooks }.push
        [.advance client (.wait timeout (some token)), .closeHooks, .finish (.wait simple)])
    | _, _ => ([], machine.answer .unknown)
  | .isPending client target =>
    machine.withTarget own target fun sequence =>
      machine.view client fun client => .flag (client.table.contains sequence)
  | .pendingCount client => machine.view client fun client => .count client.pendingCount
  | .describe client => machine.view client fun client => .text client.describe
  | .describeTally client => machine.view client fun client => .text client.tally.describe
  | .options client => machine.view client fun client => .options client.options
  | .future future =>
    machine.viewFuture own future fun future =>
      .future future.sequence (session.cells.value? future) (session.cells.describe future)
  | .cloneFuture future =>
    machine.withFuture own future fun future =>
      let (index, session) := session.record future
      ([], { machine with session }.answer (.recorded index future.sequence))
  | .same left right =>
    machine.withFuture own left fun left =>
      machine.viewFuture own right fun right => .flag (left.cell == right.cell)
  | .get future =>
    machine.viewFuture own future fun future =>
      .ofReader (Reader.unbounded.step (session.cells.cell future) false)
  | .getWithin future timeout =>
    machine.withFuture own future fun future =>
      let cell := session.cells.cell future
      let reader := Reader.within environment.realTime.read.1 timeout
      machine.patiently cell timeout (reader.step cell false)
  | .poll future waker =>
    machine.withFuture own future fun future =>
      let (value, cells) := session.cells.poll future waker
      ([], (machine.withEnvironment { environment with cells }).answer (.polled value))
  | .resolveDirect future value callback =>
    machine.withFuture own future fun future =>
      let entry : Pending.Entry Program := ⟨future, callback, .origin⟩
      match entry.resolve session.cells value with
      | .error error => ([], machine.answer (.answered (.error error)))
      | .ok (wakers, completed, cells) =>
        let calls := completed.callback.map (Task.callBack completed.future)
        (wakers.map Occurrence.woke,
          (machine.withEnvironment { environment with cells }).push
            (calls.toList ++ [.reply (.resolved completed.future.sequence)]))
  | .readers client future readers response =>
    machine.withFuture own future fun future =>
      match session.client? client with
      | none => ([], machine.answer .unknown)
      | some found =>
        if !found.table.contains future.sequence || session.cells.isDone future then
          ([], machine.answer .notPending)
        else
          machine.call client (.complete future.sequence response) (some (.readers future readers))
  | .race client future threads response =>
    machine.withFuture own future fun future =>
      match session.client? client with
      | none => ([], machine.answer .unknown)
      | some _ => ([.threadsEntered], machine.race client future.sequence response threads [])
  | .raceSubmit client threads each =>
    match session.client? client with
    | none => ([], machine.answer .unknown)
    | some _ => ([.threadsEntered], machine.raceSubmit client (threads * each) [])
  | .failNext transport failure => machine.changeTransport transport (·.failNext failure)
  | .forceNext transport sequence => machine.changeTransport transport (·.forceNext sequence)
  | .setAvailable registry value =>
    let changed := (environment.registry registry).setAvailable value
    ([], (machine.withEnvironment (environment.setRegistry registry changed)).answer .nothing)
  | .invalidate host =>
    let changed := (environment.host host).invalidate
    ([], (machine.withEnvironment (environment.setHost host changed)).answer .nothing)
  | .advance clock span =>
    let changed := (environment.clock clock).advance span
    ([], (machine.withEnvironment (environment.setClock clock changed)).answer .nothing)
  | .sent transport => machine.viewTransport transport fun transport => .sent transport.sent
  | .sentCount transport =>
    machine.viewTransport transport fun transport => .count transport.sent.length
  | .releaseCount transport =>
    machine.viewTransport transport fun transport => .count transport.releases
  | .deregistered host => ([], machine.answer (.texts (environment.host host).deregistered))
  | .now clock =>
    machine.viewTime (environment.clock clock).elapsed (environment.clock clock).now?
  | .token parent =>
    let made :=
      match parent with
      | none => some environment.tokens.fresh
      | some parent => (session.token? parent).bind environment.tokens.share?
    match made with
    | none => ([], machine.answer .unknown)
    | some (token, tokens) =>
      let session := session.withEnvironment { environment with tokens }
      ([], { machine with session := { session with tokens := session.tokens ++ [token] } }.answer
        (.count session.tokens.length))
  | .cancelToken token =>
    match session.token? token with
    | none => ([], machine.answer .unknown)
    | some token =>
      let (changed, tokens) := environment.tokens.cancel token
      ([], (machine.withEnvironment { environment with tokens }).answer (.flag changed))
  | .isCancelled token =>
    ([], machine.answer
      ((session.token? token).elim .unknown fun token =>
        .flag (environment.tokens.isCancelled token)))
  | .raise message => ([], machine.breakOff (.raised message))

/-- Counts a sleep of the innermost wait, and runs the program that follows it. -/
def afterSleep (machine : Machine) : Machine :=
  match machine.hooks with
  | [] => machine
  | hooks :: outer =>
    let sleeps := hooks.sleeps + 1
    { machine with hooks := { hooks with sleeps } :: outer }.push
      (tasks (programAt hooks.onSleep sleeps) none)

/-- Counts a query of the innermost wait, and runs the program that precedes it. -/
def beforeQuery (machine : Machine) : Machine :=
  match machine.hooks with
  | [] => machine
  | hooks :: outer =>
    let checks := hooks.checks + 1
    { machine with hooks := { hooks with checks } :: outer }.push
      (tasks (programAt hooks.onCheck checks) none)

def step (machine : Machine) (client : ClientId) (phase : Phase Program) : Result :=
  match machine.session.world.step? client phase with
  | none => ([], machine.answer .unknown)
  | some (turn, world) =>
    let machine := { machine with session := { machine.session with world } }
    let machine :=
      match turn.next with
      | .goesOn phase => machine.push [.advance client phase]
      | .callsBack future callback =>
        machine.push [.callBack future callback, .reply (.answered (.ok .done))]
      | .returned result => machine.answer (.answered result)
      | .failed fault => machine.breakOff fault
    let sleptOnVirtual := turn.effects.any fun effect =>
      match effect with
      | .slept (.virtual _) _ => true
      | _ => false
    ([.turn turn], if sleptOnVirtual then machine.afterSleep else machine)

def finish (machine : Machine) : Finish → Machine
  | .submission =>
    match machine.reply with
    | .answered (.ok (.submitted future)) =>
      let (index, session) := machine.session.record future
      { machine with session }.answer (.submitted index future.sequence)
    | _ => machine
  | .wait simple =>
    match machine.reply with
    | .answered (.ok (.outcome outcome)) =>
      if simple then machine.answer (.waitedSimply outcome.isAvailable) else machine
    | _ => machine
  | .series client total sent accepted lastError =>
    match machine.reply with
    | .answered (.ok (.submitted future)) =>
      let (_, session) := machine.session.record future
      { machine with session }.series client total sent (accepted + 1) lastError
    | .answered (.error error) => machine.series client total sent accepted (some error)
    | _ => machine
  | .readers future readers =>
    match machine.reply with
    | .answered result =>
      let value := machine.session.cells.value? future
      machine.answer (.readers result (List.replicate readers value))
    | _ => machine
  | .race client sequence response remaining counts =>
    match machine.reply with
    | .answered result =>
      machine.race client sequence response remaining (countCode (raceCode result) counts)
    | _ => machine
  | .raceSubmit client remaining futures =>
    match machine.reply with
    | .answered (.ok (.submitted future)) =>
      machine.raceSubmit client remaining (futures ++ [future])
    | _ => machine.raceSubmit client remaining futures

/-- Does a task that has been taken from the agenda. -/
def carryOut (machine : Machine) : Task → Result
  | .perform op own => machine.perform own op
  | .report op => ([.nested op machine.reply], machine)
  | .advance client (.probeQuery purpose) =>
    ([], (machine.push [.step client (.probeQuery purpose)]).beforeQuery)
  | .advance client phase => machine.step client phase
  | .step client phase => machine.step client phase
  | .callBack future callback =>
    ([.calledBack future.sequence (machine.session.cells.value? future)],
      machine.push (tasks callback (some future)))
  | .reply reply => ([], machine.answer reply)
  | .finish finish => ([], machine.finish finish)
  | .closeHooks => ([], { machine with hooks := machine.hooks.tail })
  | .leaveThreads => ([.threadsLeft], machine)

/-- Does the first task of the agenda; none if there is none. -/
def advance? (machine : Machine) : Option Result :=
  match machine.agenda with
  | [] => none
  | task :: agenda => some ({ machine with agenda }.carryOut task)

/-- Does one task after the other until none is left, and gives the trail; none if the budget of
tasks does not suffice. `recent` is the trail so far, backwards. -/
def run : Nat → List Occurrence → Machine → Option Result
  | 0, _, _ => none
  | budget + 1, recent, machine =>
    match machine.advance? with
    | none => some (recent.reverse, machine)
    | some (occurrences, machine) => run budget (occurrences.reverse ++ recent) machine

end Machine

structure Report where
  reply : Reply
  trail : Trail
  session : Session
deriving Repr

/-- How many tasks an operation may take. -/
def budget : Nat := 100000000

/-- Does an operation; none if it takes too many tasks, as a wait without end would. -/
def perform (session : Session) (op : Op) : Option Report :=
  (Machine.run budget [] { session, agenda := [.perform op none] }).map fun (trail, machine) =>
    ⟨machine.reply, trail, machine.session⟩

end Correlator.Session
