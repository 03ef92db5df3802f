import Correlator.Proofs.Client.Muting
import Correlator.Session.Machine

/-!
Contract: two machines of which one has the same to do as the other, and then more, in a session without
some of the callbacks.

Owns: the relation between the two, and that it is kept when both begin the same operation.

Does not own: all other tasks (`Correlator.Proofs.Session.Parallel`), and what becomes of a single client
(`Correlator.Proofs.Client.Muting`).
-/

set_option autoImplicit false

namespace Correlator

/-- The clients without the callbacks of some futures. -/
def World.mute {κ : Type} (muted : Future → Bool) (world : World κ) : World κ :=
  { world with clients := world.clients.map (Client.mute muted) }

theorem World.step?_mute {κ : Type} {muted : Future → Bool} {world : World κ} {index : ClientId}
    {phase : Phase κ}
    (heeds : ∀ client, world.clients[index]? = some client →
      client.Heeds muted world.environment phase) :
    (world.mute muted).step? index phase
      = (world.step? index phase).map fun made => (made.1, made.2.mute muted) := by
  unfold step? mute
  rw [List.getElem?_map, Option.map_map, Option.map_map]
  cases found : world.clients[index]? with
  | none => rfl
  | some client =>
    simp only [Option.map_some, Function.comp, Client.step_mute (heeds client found), List.map_set]
    rfl

namespace Session

/-- The session without the callbacks of some futures. -/
def mute (muted : Future → Bool) (session : Session) : Session :=
  { session with world := session.world.mute muted }

@[simp] theorem client?_mute (muted : Future → Bool) (session : Session) (index : ClientId) :
    (session.mute muted).client? index = (session.client? index).map (Client.mute muted) :=
  List.getElem?_map

/-- Ends the programs of a wait. -/
def Task.isClosing : Task → Bool
  | .closeHooks => true
  | _ => false

/-- Something broke off. -/
def Reply.isBroken : Reply → Bool
  | .broke _ => true
  | _ => false

theorem Reply.isBroken_ofReader (reader : Reader) : (Reply.ofReader reader).isBroken = false := by
  cases reader <;> rfl

/-- Replies that something broke off. -/
def Task.isBreach : Task → Bool
  | .reply given => given.isBroken
  | _ => false

/-- The tasks will have replied before the last reply is asked for. -/
def settles : List Task → Bool
  | [] | .report _ :: _ | .finish _ :: _ => false
  | .perform _ _ :: _ | .advance _ _ :: _ | .step _ _ :: _ | .reply _ :: _ => true
  | .callBack _ _ :: rest | .closeHooks :: rest | .leaveThreads :: rest => settles rest

theorem settles_append {tasks : List Task} (settled : settles tasks = true) (rest : List Task) :
    settles (tasks ++ rest) = true := by
  induction tasks with
  | nil => cases settled
  | cons task tasks inductionHypothesis =>
    cases task with
    | callBack | closeHooks | leaveThreads => exact inductionHypothesis settled
    | report | finish => cases settled
    | perform | advance | step | reply => rfl

namespace Machine

theorem settles_tasks (program : Program) (own : Option Future) {rest : List Task}
    (settled : settles rest = true) : settles (tasks program own ++ rest) = true := by
  cases program with
  | nil => exact settled
  | cons op program => rfl

theorem any_isBreach_tasks (program : Program) (own : Option Future) :
    (tasks program own).any Task.isBreach = false := by
  rw [List.any_eq_false]
  intro task member
  obtain ⟨op, -, inside⟩ := List.mem_flatMap.mp member
  simp only [List.mem_cons, List.not_mem_nil, or_false] at inside
  rcases inside with rfl | rfl <;> simp [Task.isBreach]

theorem countP_isClosing_tasks (program : Program) (own : Option Future) :
    (tasks program own).countP Task.isClosing = 0 := by
  rw [List.countP_eq_zero]
  intro task member
  obtain ⟨op, -, inside⟩ := List.mem_flatMap.mp member
  simp only [List.mem_cons, List.not_mem_nil, or_false] at inside
  rcases inside with rfl | rfl <;> simp [Task.isClosing]

/-- A machine and another one that has the same to do, and then more, in a session without the callbacks
of some futures. The user of both has certain futures at least. -/
structure Beside (muted : Future → Bool) (known : List Future) (rest : List Task)
    (left right : Machine) : Prop where
  session : right.session = left.session.mute muted
  hooks : right.hooks = left.hooks
  agenda : right.agenda = left.agenda ++ rest
  known : known <+: left.session.futures
  /-- The programs of every wait under way will be ended. -/
  waits : left.hooks.length = left.agenda.countP Task.isClosing
  unbroken : left.agenda.any Task.isBreach = false
  whole : left.reply.isBroken = false

/-- Moreover, the last reply is the same in both, or does not matter. -/
structure Alike (muted : Future → Bool) (known : List Future) (rest : List Task)
    (left right : Machine) : Prop extends Beside muted known rest left right where
  reply : right.reply = left.reply ∨ settles left.agenda = true

/-- Two machines broke off alike, with nothing left to be done. -/
structure Broken (muted : Future → Bool) (known : List Future) (left right : Machine) : Prop where
  right_eq : right = { left with session := left.session.mute muted }
  hooks : left.hooks = []
  agenda : left.agenda = []
  known : known <+: left.session.futures
  broke : left.reply.isBroken = true

/-- Two machines did the same, unless both broke off. -/
structure Together (muted : Future → Bool) (known : List Future) (rest : List Task)
    (left right : Result) : Prop where
  occurrences : right.1 = left.1
  machines : Alike muted known rest left.2 right.2 ∨ Broken muted known left.2 right.2

variable {muted : Future → Bool} {known : List Future} {rest : List Task} {left right : Machine}

namespace Alike

theorem together (alike : Alike muted known rest left right) (occurrences : Trail) :
    Together muted known rest (occurrences, left) (occurrences, right) :=
  ⟨rfl, .inl alike⟩

end Alike

/-! ### Performing an operation -/

namespace Beside

theorem environment (beside : Beside muted known rest left right) :
    right.session.environment = left.session.environment := by
  rw [beside.session]
  rfl

theorem futures (beside : Beside muted known rest left right) :
    right.session.futures = left.session.futures := by
  rw [beside.session]
  rfl

theorem cells (beside : Beside muted known rest left right) :
    right.session.cells = left.session.cells := congrArg Environment.cells beside.environment

theorem token? (beside : Beside muted known rest left right) :
    right.session.token? = left.session.token? := by
  rw [beside.session]
  rfl

theorem client? (beside : Beside muted known rest left right) (index : ClientId) :
    right.session.client? index = (left.session.client? index).map (Client.mute muted) := by
  rw [beside.session, client?_mute]

theorem answer (beside : Beside muted known rest left right) {reply : Reply}
    (whole : reply.isBroken = false) :
    Alike muted known rest (left.answer reply) (right.answer reply) :=
  ⟨⟨beside.session, beside.hooks, beside.agenda, beside.known, beside.waits, beside.unbroken,
    whole⟩, .inl rfl⟩

theorem replies (beside : Beside muted known rest left right) {reply : Reply}
    (whole : reply.isBroken = false) :
    Together muted known rest ([], left.answer reply) ([], right.answer reply) :=
  (beside.answer whole).together []

theorem push (beside : Beside muted known rest left right) {tasks : List Task}
    (settled : settles tasks = true) (calm : tasks.countP Task.isClosing = 0)
    (unbroken : tasks.any Task.isBreach = false) :
    Alike muted known rest (left.push tasks) (right.push tasks) where
  session := beside.session
  hooks := beside.hooks
  agenda := by
    unfold Machine.push
    rw [beside.agenda, List.append_assoc]
  known := beside.known
  waits := by
    unfold Machine.push
    rw [List.countP_append, calm, Nat.zero_add]
    exact beside.waits
  unbroken := by
    unfold Machine.push
    rw [List.any_append, unbroken, beside.unbroken]
    rfl
  whole := beside.whole
  reply := .inr (settles_append settled _)

theorem withEnvironment (beside : Beside muted known rest left right) (environment : Environment) :
    Beside muted known rest (left.withEnvironment environment)
      (right.withEnvironment environment) where
  session := by
    unfold Machine.withEnvironment
    rw [beside.session]
    rfl
  hooks := beside.hooks
  agenda := beside.agenda
  known := beside.known
  waits := beside.waits
  unbroken := beside.unbroken
  whole := beside.whole

theorem record (beside : Beside muted known rest left right) (future : Future) :
    Beside muted known rest { left with session := (left.session.record future).2 }
      { right with session := (right.session.record future).2 } where
  session := by
    rw [beside.session]
    rfl
  hooks := beside.hooks
  agenda := beside.agenda
  known := beside.known.trans (List.prefix_append _ _)
  waits := beside.waits
  unbroken := beside.unbroken
  whole := beside.whole

theorem answerRecorded (beside : Beside muted known rest left right) (future : Future)
    (reply : Nat → Reply) (whole : ∀ position, (reply position).isBroken = false) :
    Alike muted known rest
      (Machine.answer { left with session := (left.session.record future).2 }
        (reply (left.session.record future).1))
      (Machine.answer { right with session := (right.session.record future).2 }
        (reply (right.session.record future).1)) := by
  have position : (right.session.record future).1 = (left.session.record future).1 :=
    congrArg List.length beside.futures
  rw [position]
  exact (beside.record future).answer (whole _)

theorem breakOff (beside : Beside muted known rest left right) (fault : Fault) :
    Together muted known rest ([], left.breakOff fault) ([], right.breakOff fault) := by
  refine ⟨rfl, .inr ⟨?_, rfl, rfl, beside.known, rfl⟩⟩
  unfold Machine.breakOff
  rw [beside.session]

theorem call (beside : Beside muted known rest left right) (index : ClientId)
    (phase : Phase Program) (finish : Option Finish) :
    Together muted known rest (left.call index phase finish) (right.call index phase finish) := by
  unfold Machine.call
  rw [beside.client?]
  cases left.session.client? index with
  | none => exact beside.replies rfl
  | some client =>
    apply Alike.together
    apply beside.push rfl
    · cases finish <;> rfl
    · cases finish <;> rfl

theorem withFuture (beside : Beside muted known rest left right) (own : Option Future)
    (reference : FutureRef) {body shadow : Future → Result}
    (together : ∀ future, Together muted known rest (body future) (shadow future)) :
    Together muted known rest (left.withFuture own reference body)
      (right.withFuture own reference shadow) := by
  unfold Machine.withFuture
  cases reference with
  | recorded index =>
    dsimp only
    rw [beside.futures]
    cases left.session.futures[index]? with
    | none => exact beside.replies rfl
    | some future => exact together future
  | own =>
    cases own with
    | none => exact beside.replies rfl
    | some future => exact together future

theorem withTarget (beside : Beside muted known rest left right) (own : Option Future)
    (target : Target) {body shadow : Sequence → Result}
    (together : ∀ sequence, Together muted known rest (body sequence) (shadow sequence)) :
    Together muted known rest (left.withTarget own target body)
      (right.withTarget own target shadow) := by
  cases target with
  | number sequence => exact together sequence
  | future reference => exact beside.withFuture own reference fun future => together future.sequence

theorem view (beside : Beside muted known rest left right) (index : ClientId)
    {reply : Client Program → Reply}
    (same : ∀ client : Client Program, reply (client.mute muted) = reply client)
    (whole : ∀ client, (reply client).isBroken = false) :
    Together muted known rest (left.view index reply) (right.view index reply) := by
  unfold Machine.view
  rw [beside.client?]
  cases left.session.client? index with
  | none => exact beside.replies rfl
  | some client =>
    rw [Option.map_some, Option.elim_some, Option.elim_some, same]
    exact beside.replies (whole client)

theorem viewTransport (beside : Beside muted known rest left right) (transport : TransportId)
    {reply : Transport.Loopback → Reply} (whole : ∀ found, (reply found).isBroken = false) :
    Together muted known rest (left.viewTransport transport reply)
      (right.viewTransport transport reply) := by
  unfold Machine.viewTransport
  rw [beside.environment]
  apply beside.replies
  cases left.session.environment.transports[transport]? with
  | none => rfl
  | some found => exact whole found

theorem changeTransport (beside : Beside muted known rest left right) (transport : TransportId)
    (change : Transport.Loopback → Transport.Loopback) :
    Together muted known rest (left.changeTransport transport change)
      (right.changeTransport transport change) := by
  unfold Machine.changeTransport
  rw [beside.environment]
  dsimp only
  cases left.session.environment.transports[transport]? with
  | none => exact beside.replies rfl
  | some found => exact (beside.withEnvironment _).replies rfl

theorem viewFuture (beside : Beside muted known rest left right) (own : Option Future)
    (reference : FutureRef) {reply : Future → Reply}
    (whole : ∀ future, (reply future).isBroken = false) :
    Together muted known rest (left.viewFuture own reference reply)
      (right.viewFuture own reference reply) :=
  beside.withFuture own reference fun future => beside.replies (whole future)

theorem acts (beside : Beside muted known rest left right) (environment : Environment)
    {reply : Reply} (whole : reply.isBroken = false) :
    Together muted known rest ([], (left.withEnvironment environment).answer reply)
      ([], (right.withEnvironment environment).answer reply) :=
  (beside.withEnvironment environment).replies whole

theorem series (beside : Beside muted known rest left right) (index : ClientId)
    (total sent accepted : Nat) (lastError : Option ClientError) :
    Alike muted known rest (left.series index total sent accepted lastError)
      (right.series index total sent accepted lastError) := by
  unfold Machine.series
  by_cases more : sent < total
  · rw [if_pos more, if_pos more]
    exact beside.push rfl rfl rfl
  · rw [if_neg more, if_neg more]
    exact beside.answer rfl

theorem race (beside : Beside muted known rest left right) (index : ClientId)
    (sequence : Sequence) (response : Response) (remaining : Nat) (counts : List (String × Nat)) :
    Alike muted known rest (left.race index sequence response remaining counts)
      (right.race index sequence response remaining counts) := by
  cases remaining with
  | zero => exact beside.push rfl rfl rfl
  | succ remaining => exact beside.push rfl rfl rfl

/-- Records one more future. -/
private def recordNext (state : List (Nat × Sequence) × Session) (future : Future) :
    List (Nat × Sequence) × Session :=
  (state.1 ++ [((state.2.record future).1, future.sequence)], (state.2.record future).2)

private theorem foldl_recordNext (muted : Future → Bool) (futures : List Future)
    (recorded : List (Nat × Sequence)) (session : Session) :
    futures.foldl recordNext (recorded, session.mute muted)
        = ((futures.foldl recordNext (recorded, session)).1,
          (futures.foldl recordNext (recorded, session)).2.mute muted)
      ∧ session.futures <+: (futures.foldl recordNext (recorded, session)).2.futures := by
  induction futures generalizing recorded session with
  | nil => exact ⟨rfl, List.prefix_rfl⟩
  | cons future futures inductionHypothesis =>
    obtain ⟨same, grown⟩ := inductionHypothesis
      (recorded ++ [((session.record future).1, future.sequence)]) (session.record future).2
    exact ⟨same, (List.prefix_append _ _).trans grown⟩

private theorem recordAll_eq (muted : Future → Bool) (session : Session) (futures : List Future) :
    recordAll (session.mute muted) futures
        = ((recordAll session futures).1, (recordAll session futures).2.mute muted)
      ∧ session.futures <+: (recordAll session futures).2.futures :=
  foldl_recordNext muted _ [] session

theorem raceSubmit (beside : Beside muted known rest left right) (index : ClientId)
    (remaining : Nat) (futures : List Future) :
    Alike muted known rest (left.raceSubmit index remaining futures)
      (right.raceSubmit index remaining futures) := by
  cases remaining with
  | zero =>
    obtain ⟨same, grown⟩ := recordAll_eq muted left.session futures
    have recorded : Beside muted known rest
        { left with session := (recordAll left.session futures).2 }
        { right with session := (recordAll left.session futures).2.mute muted } :=
      ⟨rfl, beside.hooks, beside.agenda, beside.known.trans grown, beside.waits,
        beside.unbroken, beside.whole⟩
    unfold Machine.raceSubmit
    rw [beside.session, same]
    exact recorded.push rfl rfl rfl
  | succ remaining => exact beside.push rfl rfl rfl

private theorem wait (beside : Beside muted known rest left right) (own : Option Future)
    (index : ClientId) (timeout : Option Span) (token : Option TokenRef)
    (simple : Bool) (onSleep onCheck : List (Nat × List Op)) :
    Together muted known rest (left.perform own (.wait index timeout token simple onSleep onCheck))
      (right.perform own (.wait index timeout token simple onSleep onCheck)) := by
  have begins : ∀ token : Option Token, Alike muted known rest
      ({ left with hooks := { onSleep, onCheck } :: left.hooks }.push
        [.advance index (.wait timeout token), .closeHooks, .finish (.wait simple)])
      ({ right with hooks := { onSleep, onCheck } :: right.hooks }.push
        [.advance index (.wait timeout token), .closeHooks, .finish (.wait simple)]) := by
    intro token
    refine ⟨⟨beside.session, ?_, ?_, beside.known, ?_, beside.unbroken, beside.whole⟩, .inr rfl⟩
    · show _ :: right.hooks = _ :: left.hooks
      rw [beside.hooks]
    · show _ :: _ :: _ :: right.agenda = _ :: _ :: _ :: left.agenda ++ rest
      rw [beside.agenda]
      rfl
    · show left.hooks.length + 1 = List.countP Task.isClosing
        ([.advance index (.wait timeout token), .closeHooks, .finish (.wait simple)] ++ left.agenda)
      rw [List.countP_append, beside.waits, Nat.add_comm]
      rfl
  unfold Machine.perform
  dsimp only
  rw [beside.client?, beside.token?]
  cases left.session.client? index with
  | none => exact beside.replies rfl
  | some client =>
    cases (if simple then none else token).map left.session.token? with
    | none => exact (begins none).together []
    | some found =>
      cases found with
      | none => exact beside.replies rfl
      | some token => exact (begins (some token)).together []

private theorem patiently (beside : Beside muted known rest left right) (cell : Cell) (timeout : Span)
    (reader : Reader) :
    Together muted known rest (left.patiently cell timeout reader)
      (right.patiently cell timeout reader) := by
  unfold Machine.patiently
  rw [beside.environment]
  split
  · split
    · exact beside.acts _ (Reply.isBroken_ofReader _)
    · exact beside.replies rfl
  · exact beside.replies (Reply.isBroken_ofReader _)

private theorem getWithin (beside : Beside muted known rest left right) (own : Option Future)
    (future : FutureRef) (timeout : Span) :
    Together muted known rest (left.perform own (.getWithin future timeout))
      (right.perform own (.getWithin future timeout)) := by
  refine beside.withFuture own future fun future => ?_
  rw [beside.cells, beside.environment]
  exact beside.patiently _ timeout _

private theorem resolveDirect (beside : Beside muted known rest left right) (own : Option Future)
    (future : FutureRef) (value : Response) (callback : Option (List Op)) :
    Together muted known rest (left.perform own (.resolveDirect future value callback))
      (right.perform own (.resolveDirect future value callback)) := by
  refine beside.withFuture own future fun future => ?_
  rw [beside.cells, beside.environment]
  dsimp only
  cases (⟨future, callback, .origin⟩ : Pending.Entry Program).resolve left.session.cells value with
  | error error => exact beside.replies rfl
  | ok resolved =>
    obtain ⟨wakers, completed, cells⟩ := resolved
    apply Alike.together
    apply (beside.withEnvironment _).push
    · cases completed.callback <;> rfl
    · cases completed.callback <;> rfl
    · cases completed.callback <;> rfl

private theorem readers (beside : Beside muted known rest left right) (own : Option Future)
    (index : ClientId) (future : FutureRef) (readers : Nat) (response : Response) :
    Together muted known rest (left.perform own (.readers index future readers response))
      (right.perform own (.readers index future readers response)) := by
  refine beside.withFuture own future fun future => ?_
  have calls := beside.call index (.complete future.sequence response)
    (some (.readers future readers))
  rw [beside.client?, beside.cells]
  cases left.session.client? index with
  | none => exact beside.replies rfl
  | some client =>
    dsimp only [Option.map_some]
    rw [Client.mute_table, Pending.Table.contains_mute]
    by_cases settled : (!client.table.contains future.sequence || left.session.cells.isDone future) = true
    · rw [if_pos settled, if_pos settled]
      exact beside.replies rfl
    · rw [if_neg settled, if_neg settled]
      exact calls

private theorem viewTime (beside : Beside muted known rest left right) (elapsed : Span)
    (reading : Option Moment) :
    Together muted known rest (left.viewTime elapsed reading) (right.viewTime elapsed reading) := by
  cases reading with
  | some now => exact beside.replies rfl
  | none => exact beside.breakOff _

private theorem token (beside : Beside muted known rest left right) (own : Option Future)
    (parent : Option TokenRef) :
    Together muted known rest (left.perform own (.token parent))
      (right.perform own (.token parent)) := by
  unfold Machine.perform
  dsimp only
  rw [beside.session]
  have shelved : (left.session.mute muted).environment.tokens
      = left.session.environment.tokens := rfl
  have meant : (left.session.mute muted).token? = left.session.token? := rfl
  rw [shelved, meant]
  cases parent with
  | none =>
    refine Beside.replies ?_ rfl
    exact ⟨rfl, beside.hooks, beside.agenda, beside.known, beside.waits, beside.unbroken,
      beside.whole⟩
  | some reference =>
    dsimp only
    cases (left.session.token? reference).bind left.session.environment.tokens.share? with
    | none => exact beside.replies rfl
    | some shared =>
      refine Beside.replies ?_ rfl
      exact ⟨rfl, beside.hooks, beside.agenda, beside.known, beside.waits, beside.unbroken,
        beside.whole⟩

theorem perform (beside : Beside muted known rest left right) (own : Option Future) (op : Op) :
    Together muted known rest (left.perform own op) (right.perform own op) := by
  cases op with
  | submit index request callback => exact beside.call index _ _
  | submitMany index count =>
    unfold Machine.perform
    dsimp only
    rw [beside.client?]
    cases left.session.client? index with
    | none => exact beside.replies rfl
    | some client => exact (beside.series index count 0 0 none).together []
  | complete index target response =>
    exact beside.withTarget own target fun sequence => beside.call index _ none
  | cancel index future => exact beside.withFuture own future fun future => beside.call index _ none
  | pruneAll index | pruneStale index | isAvailable index | dispose index =>
    exact beside.call index _ none
  | pruneOlder index cutoff => exact beside.call index _ none
  | wait index timeout token simple onSleep onCheck =>
    exact beside.wait own index timeout token simple onSleep onCheck
  | isPending index target =>
    refine beside.withTarget own target fun sequence => beside.view index ?_ fun _ => rfl
    intro client
    rw [Client.mute_table, Pending.Table.contains_mute]
  | pendingCount index =>
    refine beside.view index ?_ fun _ => rfl
    exact fun client => congrArg Reply.count (client.pendingCount_mute muted)
  | describe index =>
    refine beside.view index ?_ fun _ => rfl
    exact fun client => congrArg Reply.text (client.describe_mute muted)
  | describeTally index | options index => exact beside.view index (fun _ => rfl) fun _ => rfl
  | future future =>
    unfold Machine.perform
    dsimp only
    rw [beside.cells]
    exact beside.viewFuture own future fun _ => rfl
  | get future =>
    unfold Machine.perform
    dsimp only
    rw [beside.cells]
    exact beside.viewFuture own future fun _ => Reply.isBroken_ofReader _
  | cloneFuture future =>
    exact beside.withFuture own future fun future =>
      (beside.answerRecorded future (.recorded · future.sequence) fun _ => rfl).together []
  | same first second =>
    exact beside.withFuture own first fun first => beside.viewFuture own second fun _ => rfl
  | getWithin future timeout => exact beside.getWithin own future timeout
  | poll future waker =>
    refine beside.withFuture own future fun future => ?_
    rw [beside.cells, beside.environment]
    exact beside.acts _ rfl
  | resolveDirect future value callback => exact beside.resolveDirect own future value callback
  | readers index future readers response =>
    exact beside.readers own index future readers response
  | race index future threads response =>
    refine beside.withFuture own future fun future => ?_
    rw [beside.client?]
    cases left.session.client? index with
    | none => exact beside.replies rfl
    | some client => exact (beside.race index future.sequence response threads []).together _
  | raceSubmit index threads each =>
    unfold Machine.perform
    dsimp only
    rw [beside.client?]
    cases left.session.client? index with
    | none => exact beside.replies rfl
    | some client => exact (beside.raceSubmit index (threads * each) []).together _
  | failNext transport failure => exact beside.changeTransport transport _
  | forceNext transport sequence => exact beside.changeTransport transport _
  | setAvailable | invalidate | advance =>
    unfold Machine.perform
    dsimp only
    rw [beside.environment]
    exact beside.acts _ rfl
  | sent transport | sentCount transport | releaseCount transport =>
    exact beside.viewTransport transport fun _ => rfl
  | deregistered host =>
    unfold Machine.perform
    dsimp only
    rw [beside.environment]
    exact beside.replies rfl
  | now clock =>
    unfold Machine.perform
    dsimp only
    rw [beside.environment]
    exact beside.viewTime _ _
  | token parent => exact beside.token own parent
  | cancelToken token =>
    unfold Machine.perform
    dsimp only
    rw [beside.environment, beside.token?]
    cases left.session.token? token with
    | none => exact beside.replies rfl
    | some token => exact beside.acts _ rfl
  | isCancelled token =>
    unfold Machine.perform
    dsimp only
    rw [beside.environment, beside.token?]
    apply beside.replies
    cases left.session.token? token <;> rfl
  | raise message => exact beside.breakOff _

end Beside

end Machine

end Session

end Correlator
