import Correlator.Client.Basic
import Correlator.Client.Notice

/-!
Contract: the operations of a client, as sequences of steps that nothing interrupts.

Owns: what each operation does to the client and its environment, where it can be interleaved with
others (between two steps), what it makes happen and in which order, and what it answers.

Does not own: the running of callbacks (`Correlator.Session.Machine`), and which client an operation
is for (`Correlator.World`).
-/

set_option autoImplicit false

namespace Correlator

/-- The end of a wait for a service. -/
inductive WaitOutcome where
  | available
  | timedOut
  /-- One of the two tokens is set. -/
  | cancelled
  /-- The host is gone, and the service with it. -/
  | contextInvalid
deriving DecidableEq, Repr

namespace WaitOutcome

def isAvailable : WaitOutcome → Bool
  | .available => true
  | _ => false

def text : WaitOutcome → String
  | .available => "Available"
  | .timedOut => "TimedOut"
  | .cancelled => "Cancelled"
  | .contextInvalid => "ContextInvalid"

end WaitOutcome

/-- What an operation answers when it succeeds. -/
inductive Answer where
  | done
  | submitted (future : Future)
  | flag (value : Bool)
  | count (value : Nat)
  | outcome (value : WaitOutcome)
deriving DecidableEq, Repr

/-- Why an operation broke off without an answer. -/
inductive Fault where
  /-- The present is beyond the range of points in time. -/
  | clockOutOfRange
  /-- Something outside of the client broke off. -/
  | raised (message : String)
deriving DecidableEq, Repr

def Fault.message : Fault → String
  | .clockOutOfRange => "overflow when adding duration to instant"
  | .raised message => message

/-- How an entry leaves the table. -/
inductive Removal where
  | completed
  | cancelled
  | pruned
deriving DecidableEq, Repr

/-- What a step makes happen besides changing the client and its environment. -/
inductive Effect where
  /-- The client's table is closed to all others. -/
  | locked
  | unlocked
  /-- The transport was asked to send, and what it answered. -/
  | sent (request : Request) (sequence : Sequence)
  | refused (request : Request) (failure : Transport.Failure)
  | readClock (reading : Option Moment)
  | slept (clock : ClockChoice) (nap : Span)
  | queried (available : Bool)
  | sawHost (isValid : Bool)
  | sawToken (isSet : Bool)
  /-- An entry came into the table, or left it. -/
  | stored (future : Future)
  | removed (future : Future) (removal : Removal)
  | resolved (future : Future) (value : Response)
  | woke (waker : Waker)
  | counted (counter : Counter) (amount : UInt64)
  | logged (notice : Notice)
  | deregistered (service : String)
  | released (transport : TransportId)
deriving DecidableEq, Repr

/-- A wait under way: how long it may take, the token of the caller, and when it began. -/
structure Vigil where
  timeout : Option Span
  token : Option Token
  started : Moment
deriving DecidableEq, Repr

/-- For which purpose the registry is asked. -/
inductive Purpose where
  /-- For the answer itself. -/
  | answer
  /-- For a wait that may take no time. -/
  | once
  /-- For a wait under way. -/
  | during (vigil : Vigil)
deriving DecidableEq, Repr

/-- The next step of an operation. The first group are the first steps of the operations. -/
inductive Phase (κ : Type) where
  | submit (request : Request) (callback : Option κ)
  | complete (sequence : Sequence) (response : Response)
  | cancel (future : Future)
  | pruneAll
  | pruneOlder (cutoff : Moment)
  | pruneStale
  | isAvailable
  | wait (timeout : Option Span) (token : Option Token)
  | dispose
  | countCompleted (completed : Pending.Completed κ)
  | notify (future : Future) (callback : κ)
  /-- Answers a prune that has nothing to look for. -/
  | pruneNothing
  /-- Looks at the host before a wait that may take no time. -/
  | waitOnce
  /-- Reads the clock at the beginning of a wait. -/
  | waitBegin (timeout : Option Span) (token : Option Token)
  | waitShutdown (vigil : Vigil)
  | waitToken (vigil : Vigil)
  | waitHost (vigil : Vigil)
  /-- Finds out how much time is left. -/
  | waitBudget (vigil : Vigil) (timeout : Span)
  | waitSleep (vigil : Vigil) (nap : Span)
  | waitReport (vigil : Vigil) (nap : Span)
  /-- The three steps of asking whether the service is there. -/
  | probeLive (purpose : Purpose)
  | probeHost (purpose : Purpose)
  | probeQuery (purpose : Purpose)
  | deregister (orphaned : Nat)
  | release (orphaned : Nat)
deriving DecidableEq, Repr

/-- What comes after a step. -/
inductive Next (κ : Type) where
  | goesOn (phase : Phase κ)
  /-- The callback runs with the future; then the operation succeeds. -/
  | callsBack (future : Future) (callback : κ)
  | returned (result : Except ClientError Answer)
  | failed (fault : Fault)
deriving Repr

/-- What the answer of the registry means for the purpose of asking. -/
def Purpose.conclude {κ : Type} (available : Bool) : Purpose → Next κ
  | .answer => .returned (.ok (.flag available))
  | .once => .returned (.ok (.outcome (if available then .available else .timedOut)))
  | .during vigil =>
    if available then .returned (.ok (.outcome .available)) else .goesOn (.waitShutdown vigil)

structure Step (κ : Type) where
  client : Client κ
  environment : Environment
  effects : List Effect
  next : Next κ
deriving Repr

namespace Client

variable {κ : Type}

/-- A step under the lock of a client that is still in use; one that is disposed of only answers
so. -/
def whileLive (client : Client κ) (environment : Environment) (body : Step κ) : Step κ :=
  if client.disposed then
    ⟨client, environment, [.locked, .unlocked], .returned (.error (.invalidHandle client.service))⟩
  else { body with effects := .locked :: body.effects ++ [.unlocked] }

/-- Sends a request and makes it pending. -/
def submit (client : Client κ) (environment : Environment) (request : Request)
    (callback : Option κ) : Step κ :=
  match client.reached? with
  | some limit =>
    ⟨client, environment, [.logged (.capacityReached limit)],
      .returned (.error (.capacityExceeded client.service limit))⟩
  | none =>
    match (environment.transport client.transport).send request with
    | (.error failure, transport) =>
      ⟨client.count .transmitFailures 1, environment.setTransport client.transport transport,
        [.refused request failure, .counted .transmitFailures 1,
          .logged (.transmissionFailed failure)],
        .returned (.error (.transmit client.service failure))⟩
    | (.ok sequence, transport) =>
      let environment := environment.setTransport client.transport transport
      match environment.readClock client.clock with
      | (none, environment) =>
        ⟨client, environment, [.sent request sequence, .readClock none], .failed .clockOutOfRange⟩
      | (some now, environment) =>
        let (future, cells) := environment.cells.fresh sequence
        match client.table.insert? ⟨future, callback, now⟩ with
        | none =>
          ⟨client, environment,
            [.sent request sequence, .readClock (some now), .logged (.sequenceReused sequence)],
            .returned (.error (.duplicateSequence client.service sequence))⟩
        | some table =>
          ⟨{ client with table }.count .submitted 1, { environment with cells },
            [.sent request sequence, .readClock (some now), .stored future,
              .counted .submitted 1, .logged (.requestSubmitted sequence table.size)],
            .returned (.ok (.submitted future))⟩

/-- Takes the entry of a response out of the table and stores the response in its cell. -/
def complete (client : Client κ) (environment : Environment) (sequence : Sequence)
    (response : Response) : Step κ :=
  match client.table.remove? sequence with
  | none =>
    ⟨client.count .unmatched 1, environment,
      [.counted .unmatched 1, .logged (.responseUnmatched sequence)],
      .returned (.error (.unmatchedResponse client.service sequence))⟩
  | some (entry, table) =>
    match entry.resolve environment.cells response with
    | .error error =>
      ⟨{ client with table }, environment, [.removed entry.future .completed],
        .returned (.error error)⟩
    | .ok (wakers, completed, cells) =>
      ⟨{ client with table }, { environment with cells },
        [.removed entry.future .completed, .resolved entry.future response]
          ++ wakers.map Effect.woke,
        .goesOn (.countCompleted completed)⟩

/-- Counts a completed request; then comes its callback, if it has one. -/
def countCompleted (client : Client κ) (environment : Environment)
    (completed : Pending.Completed κ) : Step κ :=
  ⟨client.count .completed 1, environment,
    [.counted .completed 1, .logged (.responseCorrelated completed.future.sequence)],
    match completed.callback with
    | some callback => .goesOn (.notify completed.future callback)
    | none => .returned (.ok .done)⟩

/-- Forgets the pending request with the number of a future. -/
def cancel (client : Client κ) (environment : Environment) (future : Future) : Step κ :=
  match client.table.remove? future.sequence with
  | none => ⟨client, environment, [], .returned (.ok (.flag false))⟩
  | some (entry, table) =>
    ⟨{ client with table }.count .cancelled 1, environment,
      [.removed entry.future .cancelled, .counted .cancelled 1,
        .logged (.requestCancelled future.sequence)],
      .returned (.ok (.flag true))⟩

/-- Goes on with a smaller table after a prune, and counts and reports what it dropped, if
anything. -/
def pruned (client : Client κ) (environment : Environment) (scope : PruneScope)
    (dropped : List (Sequence × Pending.Entry κ)) (removed : Nat) (table : Pending.Table κ) :
    Step κ :=
  let departures := dropped.map fun row => Effect.removed row.2.future .pruned
  if removed = 0 then
    ⟨{ client with table }, environment, departures, .returned (.ok (.count removed))⟩
  else
    ⟨{ client with table }.count .pruned (UInt64.ofNat removed), environment,
      departures
        ++ [.counted .pruned (UInt64.ofNat removed), .logged (.requestsPruned removed scope)],
      .returned (.ok (.count removed))⟩

def pruneAll (client : Client κ) (environment : Environment) : Step κ :=
  let (removed, table) := client.table.clear
  client.pruned environment .all client.table.rows removed table

/-- Forgets the pending requests that were submitted strictly before a point in time. -/
def pruneOlder (client : Client κ) (environment : Environment) (cutoff : Moment) : Step κ :=
  let (removed, table) := client.table.removeBefore cutoff
  let dropped := client.table.rows.filter fun row => row.2.submittedAt < cutoff
  client.pruned environment .olderThan dropped removed table

def pruneNothing (client : Client κ) (environment : Environment) : Step κ :=
  client.whileLive environment ⟨client, environment, [], .returned (.ok (.count 0))⟩

/-- Finds the point in time before which requests are stale. Without a threshold there is none, and
neither if it lies before all representable points. -/
def pruneStale (client : Client κ) (environment : Environment) : Step κ :=
  match client.options.staleAfter with
  | none => client.pruneNothing environment
  | some threshold =>
    match environment.readClock client.clock with
    | (none, environment) =>
      ⟨client, environment, [.readClock none], .failed .clockOutOfRange⟩
    | (some now, environment) =>
      ⟨client, environment, [.readClock (some now)],
        match now.before? threshold with
        | some cutoff => .goesOn (.pruneOlder cutoff)
        | none => .goesOn .pruneNothing⟩

/-- Puts the client out of use; its pending requests stay where they are. -/
def dispose (client : Client κ) (environment : Environment) : Step κ :=
  ⟨{ client with disposed := true }, environment, [], .goesOn (.deregister client.pendingCount)⟩

/-- Signs off from the host, if it is still there. -/
def deregister (client : Client κ) (environment : Environment) (orphaned : Nat) : Step κ :=
  if (environment.host client.host).isValid then
    ⟨client, environment.deregister client.host client.service,
      [.sawHost true, .deregistered client.service], .goesOn (.release orphaned)⟩
  else
    ⟨client, environment, [.sawHost false, .logged .hostGone], .goesOn (.release orphaned)⟩

def release (client : Client κ) (environment : Environment) (orphaned : Nat) : Step κ :=
  ⟨client,
    environment.setTransport client.transport (environment.transport client.transport).release,
    .released client.transport ::
      ((if orphaned = 0 then [] else [Effect.logged (.requestsOrphaned orphaned)])
        ++ [.logged .disposed]),
    .returned (.ok .done)⟩

/-- Looks at the host before the registry is asked; without a host no service is there. -/
def probeHost (client : Client κ) (environment : Environment) (purpose : Purpose) : Step κ :=
  ⟨client, environment, [.sawHost (environment.host client.host).isValid],
    if (environment.host client.host).isValid then .goesOn (.probeQuery purpose)
    else Purpose.conclude false purpose⟩

def probeQuery (client : Client κ) (environment : Environment) (purpose : Purpose) : Step κ :=
  let (available, registry) := (environment.registry client.registry).query
  ⟨client, environment.setRegistry client.registry registry, [.queried available],
    Purpose.conclude available purpose⟩

def waitOnce (client : Client κ) (environment : Environment) : Step κ :=
  ⟨client, environment, [.sawHost (environment.host client.host).isValid],
    if (environment.host client.host).isValid then .goesOn (.probeLive .once)
    else .returned (.ok (.outcome .contextInvalid))⟩

def waitBegin (client : Client κ) (environment : Environment) (timeout : Option Span)
    (token : Option Token) : Step κ :=
  match environment.readClock client.clock with
  | (none, environment) => ⟨client, environment, [.readClock none], .failed .clockOutOfRange⟩
  | (some started, environment) =>
    ⟨client, environment, [.readClock (some started)],
      .goesOn (.waitShutdown ⟨timeout, token, started⟩)⟩

/-- Looks at one of the two tokens that end a wait. -/
def waitFlag (client : Client κ) (environment : Environment) (token : Option Token)
    (next : Phase κ) : Step κ :=
  let isSet := environment.isCancelled token
  ⟨client, environment, [.sawToken isSet],
    if isSet then .returned (.ok (.outcome .cancelled)) else .goesOn next⟩

/-- Looks at the host during a wait. A wait without limit naps for the poll interval. -/
def waitHost (client : Client κ) (environment : Environment) (vigil : Vigil) : Step κ :=
  ⟨client, environment, [.sawHost (environment.host client.host).isValid],
    if (environment.host client.host).isValid then
      match vigil.timeout with
      | none => .goesOn (.waitSleep vigil client.options.pollInterval)
      | some timeout => .goesOn (.waitBudget vigil timeout)
    else .returned (.ok (.outcome .contextInvalid))⟩

/-- The length of the next nap: the poll interval, or what is left of the time if that is less; none
if nothing is left. -/
def nap? (interval timeout spent : Span) : Option Span :=
  match timeout.sub? spent with
  | none => none
  | some left => if left.isZero then none else some (left.shorter interval)

def waitBudget (client : Client κ) (environment : Environment) (vigil : Vigil) (timeout : Span) :
    Step κ :=
  match environment.readClock client.clock with
  | (none, environment) => ⟨client, environment, [.readClock none], .failed .clockOutOfRange⟩
  | (some now, environment) =>
    ⟨client, environment, [.readClock (some now)],
      match nap? client.options.pollInterval timeout (now.since vigil.started) with
      | some nap => .goesOn (.waitSleep vigil nap)
      | none => .returned (.ok (.outcome .timedOut))⟩

def waitSleep (client : Client κ) (environment : Environment) (vigil : Vigil) (nap : Span) : Step κ :=
  ⟨client, environment.sleep nap client.clock, [.slept client.clock nap],
    .goesOn (.waitReport vigil nap)⟩

def step (client : Client κ) (environment : Environment) : Phase κ → Step κ
  | .submit request callback =>
    client.whileLive environment (client.submit environment request callback)
  | .complete sequence response =>
    client.whileLive environment (client.complete environment sequence response)
  | .cancel future => client.whileLive environment (client.cancel environment future)
  | .pruneAll => client.whileLive environment (client.pruneAll environment)
  | .pruneOlder cutoff => client.whileLive environment (client.pruneOlder environment cutoff)
  | .pruneStale => client.pruneStale environment
  | .isAvailable =>
    client.whileLive environment ⟨client, environment, [], .goesOn (.probeHost .answer)⟩
  | .wait timeout token =>
    client.whileLive environment
      ⟨client, environment, [],
        if timeout.any (·.isZero) then .goesOn .waitOnce else .goesOn (.waitBegin timeout token)⟩
  | .dispose => client.whileLive environment (client.dispose environment)
  | .countCompleted completed => client.countCompleted environment completed
  | .notify future callback => ⟨client, environment, [], .callsBack future callback⟩
  | .pruneNothing => client.pruneNothing environment
  | .waitOnce => client.waitOnce environment
  | .waitBegin timeout token => client.waitBegin environment timeout token
  | .waitShutdown vigil =>
    client.waitFlag environment client.shutdown (.waitToken vigil)
  | .waitToken vigil => client.waitFlag environment vigil.token (.waitHost vigil)
  | .waitHost vigil => client.waitHost environment vigil
  | .waitBudget vigil timeout => client.waitBudget environment vigil timeout
  | .waitSleep vigil nap => client.waitSleep environment vigil nap
  | .waitReport vigil nap =>
    ⟨client, environment, [.logged (.polling nap)], .goesOn (.probeLive (.during vigil))⟩
  | .probeLive purpose =>
    client.whileLive environment ⟨client, environment, [], .goesOn (.probeHost purpose)⟩
  | .probeHost purpose => client.probeHost environment purpose
  | .probeQuery purpose => client.probeQuery environment purpose
  | .deregister orphaned => client.deregister environment orphaned
  | .release orphaned => client.release environment orphaned

end Client

end Correlator
