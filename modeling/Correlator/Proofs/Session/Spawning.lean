import Correlator.Proofs.Session.Turn

/-!
Contract: what tasks put on the agenda.

Owns: which client a task is about, that a task puts in front of the agenda only tasks of programs and tasks
about its own client, and that the submission of a request with a callback is put there together with the
recording of its future.

Does not own: what tasks do to clients and environment (`Correlator.Proofs.Session.Outcome`).
-/

set_option autoImplicit false

namespace Correlator

/-- Goes on with the submission of a request. -/
def Next.submits {κ : Type} : Next κ → Bool
  | .goesOn (.submit _ _) => true
  | _ => false

theorem Next.not_submits_of_isCalm {κ : Type} {next : Next κ} (calm : next.isCalm = true) :
    next.submits = false := by
  cases next with
  | goesOn phase => cases phase <;> first | rfl | cases calm
  | callsBack | returned | failed => rfl

namespace Client

variable {κ : Type} (client : Client κ) (environment : Environment)

/-- No step goes on with a submission: a request is submitted in one step. -/
theorem submits_step (phase : Phase κ) : (client.step environment phase).next.submits = false := by
  cases isAside : phase.isAside with
  | true =>
    have sidestep := client.sidestep_step environment isAside
    generalize client.step environment phase = step at sidestep ⊢
    cases sidestep with
    | gone | signedOff | unhosted | released => rfl
    | entered live calm | timed read calm | looked observes calm | queried calm | slept calm =>
      exact Next.not_submits_of_isCalm calm
  | false =>
    have exit := client.exit_step environment phase
    generalize client.step environment phase = step at exit ⊢
    cases exit with
    | aside aside client_eq cells_eq effects next =>
      rw [aside] at isAside
      cases isAside
    | _ => rfl

end Client

namespace Session

/-- The client that an operation is on. -/
def Op.client? : Op → Option ClientId
  | .submit client _ _ | .submitMany client _ | .complete client _ _ | .cancel client _
  | .pruneAll client | .pruneOlder client _ | .pruneStale client | .isAvailable client
  | .dispose client | .wait client _ _ _ _ _ | .isPending client _ | .pendingCount client
  | .describe client | .describeTally client | .options client | .readers client _ _ _
  | .race client _ _ _ | .raceSubmit client _ _ => some client
  | _ => none

/-- The client whose operations a series goes on with. -/
def Finish.client? : Finish → Option ClientId
  | .series client _ _ _ _ | .race client _ _ _ _ | .raceSubmit client _ _ => some client
  | _ => none

namespace Task

/-- The client that a task is about. -/
def client? : Task → Option ClientId
  | .perform op _ => op.client?
  | .advance client _ | .step client _ => some client
  | .finish later => later.client?
  | _ => none

/-- The operation that a task begins. -/
def op? : Task → Option Op
  | .perform op _ => some op
  | _ => none

/-- Submits a request with a callback. -/
def entrusts (task : Task) : Bool :=
  match task.operation? with
  | some (_, .submit _ (some _)) => true
  | _ => false

/-- Gives the user the future of a request. -/
def records : Task → Bool
  | .finish .submission => true
  | _ => false

/-- Every request with a callback will be recorded right after its submission. -/
def heralded : List Task → Bool
  | [] => true
  | task :: rest => (!task.entrusts || rest.head?.any records) && heralded rest

theorem head?_of_heralded {task : Task} {rest : List Task} (entrusts : task.entrusts = true)
    (heralded : heralded (task :: rest) = true) : rest.head? = some (.finish .submission) := by
  obtain ⟨own, -⟩ := Bool.and_eq_true_iff.mp heralded
  rw [entrusts, Bool.not_true, Bool.false_or] at own
  cases first : rest.head? with
  | none =>
    rw [first] at own
    cases own
  | some next =>
    rw [first] at own
    have records : next.records = true := own
    unfold Task.records at records
    split at records
    · rfl
    · cases records

theorem heralded_of_plain {tasks : List Task} (plain : ∀ task ∈ tasks, task.entrusts = false) :
    heralded tasks = true := by
  induction tasks with
  | nil => rfl
  | cons task tasks inductionHypothesis =>
    obtain ⟨first, later⟩ := List.forall_mem_cons.mp plain
    unfold heralded
    rw [first, inductionHypothesis later]
    rfl

theorem heralded_append {front back : List Task} (first : heralded front = true)
    (last : heralded back = true) : heralded (front ++ back) = true := by
  induction front with
  | nil => exact last
  | cons task front inductionHypothesis =>
    obtain ⟨own, later⟩ := Bool.and_eq_true_iff.mp first
    refine Bool.and_eq_true_iff.mpr ⟨?_, inductionHypothesis later⟩
    cases front with
    | nil =>
      have calm : task.entrusts = false := by simpa using own
      rw [calm]
      rfl
    | cons next front => exact own

/-- Tasks that begin operations of programs or are about this client, every submission of a request with a
callback among them right before the recording of its future. -/
structure Spawns (client : Option ClientId) (tasks : List Task) : Prop where
  own : ∀ task ∈ tasks, task.op? = none → task.client? = none ∨ task.client? = client
  heralded : heralded tasks = true

theorem Spawns.nil (client : Option ClientId) : Spawns client [] := ⟨by simp, rfl⟩

theorem Spawns.append {client : Option ClientId} {front back : List Task}
    (first : Spawns client front) (last : Spawns client back) : Spawns client (front ++ back) where
  own task member := (List.mem_append.mp member).elim (first.own task) (last.own task)
  heralded := heralded_append first.heralded last.heralded

/-- A program may follow in front of any client's tasks. -/
theorem spawns_tasks (client : Option ClientId) (program : Program) (own : Option Future) :
    Spawns client (Machine.tasks program own) := by
  have each : ∀ task ∈ Machine.tasks program own,
      (task.op? = none → task.client? = none) ∧ task.entrusts = false := by
    intro task member
    obtain ⟨op, -, inside⟩ := List.mem_flatMap.mp member
    simp only [List.mem_cons, List.not_mem_nil, or_false] at inside
    rcases inside with rfl | rfl
    · exact ⟨fun idle => (by cases idle), rfl⟩
    · exact ⟨fun _ => rfl, rfl⟩
  exact ⟨fun task member none => .inl ((each task member).1 none),
    heralded_of_plain fun task member => (each task member).2⟩

end Task

namespace Machine

/-- All that was left to be done was given up, or it is still there behind what a task about this client put in
front of it. -/
def Adds (machine : Machine) (client : Option ClientId) (next : Machine) : Prop :=
  next.agenda = [] ∨ ∃ fresh, next.agenda = fresh ++ machine.agenda ∧ Task.Spawns client fresh

section Adds

variable {machine next : Machine} {client : Option ClientId}

theorem Adds.nothing (same : next.agenda = machine.agenda) : machine.Adds client next :=
  .inr ⟨[], same, .nil client⟩

theorem Adds.push {fresh : List Task} (same : next.agenda = machine.agenda)
    (spawns : Task.Spawns client fresh) : machine.Adds client (next.push fresh) :=
  .inr ⟨fresh, congrArg (fresh ++ ·) same, spawns⟩

variable (machine)

private theorem adds_call (index : ClientId) {phase : Phase Program} {finish : Option Finish}
    (spawns : Task.Spawns (some index) (.advance index phase :: (finish.map Task.finish).toList)) :
    machine.Adds (some index) (machine.call index phase finish).2 := by
  unfold call
  split
  · exact .nothing rfl
  · exact .push rfl spawns

private theorem adds_withFuture (own : Option Future) (reference : FutureRef)
    {body : Future → Result} (adds : ∀ future, machine.Adds client (body future).2) :
    machine.Adds client (machine.withFuture own reference body).2 :=
  machine.withFuture_cases own (motive := fun result => machine.Adds client result.2)
    (fun _ => .nothing rfl) reference adds

private theorem adds_withTarget (own : Option Future) (target : Target)
    {body : Sequence → Result} (adds : ∀ sequence, machine.Adds client (body sequence).2) :
    machine.Adds client (machine.withTarget own target body).2 :=
  machine.withTarget_cases own (motive := fun result => machine.Adds client result.2)
    (fun _ => .nothing rfl) target adds

private theorem adds_changeTransport (transport : TransportId)
    (change : Transport.Loopback → Transport.Loopback) :
    machine.Adds client (machine.changeTransport transport change).2 := by
  unfold changeTransport
  dsimp only
  split <;> exact .nothing rfl

private theorem adds_viewTime (elapsed : Span) (reading : Option Moment) :
    machine.Adds client (machine.viewTime elapsed reading).2 :=
  machine.viewTime_cases (motive := fun result => machine.Adds client result.2)
    (fun _ => .nothing rfl) elapsed reading fun _ => .inl rfl

private theorem spawns_pair {index : ClientId} {phase : Phase Program} {finish : Finish}
    (own : finish.client? = none ∨ finish.client? = some index)
    (heralded : Task.heralded [.advance index phase, .finish finish] = true) :
    Task.Spawns (some index) [.advance index phase, .finish finish] := by
  refine ⟨fun task member _ => ?_, heralded⟩
  simp only [List.mem_cons, List.not_mem_nil, or_false] at member
  rcases member with rfl | rfl
  · exact .inr rfl
  · exact own

private theorem spawns_single {index : ClientId} {phase : Phase Program}
    (heralded : Task.heralded [.advance index phase] = true) :
    Task.Spawns (some index) [.advance index phase] := by
  refine ⟨fun task member _ => ?_, heralded⟩
  rw [List.mem_singleton.mp member]
  exact .inr rfl

private theorem adds_series (same : next.agenda = machine.agenda) (index : ClientId)
    (total sent accepted : Nat) (lastError : Option ClientError) :
    machine.Adds (some index) (next.series index total sent accepted lastError) := by
  unfold series
  split
  · exact .push same (spawns_pair (.inr rfl) rfl)
  · exact .nothing same

private theorem adds_race (same : next.agenda = machine.agenda) (index : ClientId)
    (sequence : Sequence) (response : Response) (remaining : Nat) (counts : List (String × Nat)) :
    machine.Adds (some index) (next.race index sequence response remaining counts) := by
  cases remaining with
  | zero => exact .push same ⟨by simp [Task.client?], rfl⟩
  | succ remaining => exact .push same (spawns_pair (.inr rfl) rfl)

private theorem adds_raceSubmit (same : next.agenda = machine.agenda) (index : ClientId)
    (remaining : Nat) (futures : List Future) :
    machine.Adds (some index) (next.raceSubmit index remaining futures) := by
  cases remaining with
  | zero =>
    refine .inr ⟨[.leaveThreads, .reply (.raceSubmitted (recordAll next.session futures).1)], ?_,
      by simp [Task.client?], rfl⟩
    rw [← same]
    rfl
  | succ remaining => exact .push same (spawns_pair (.inr rfl) rfl)

private theorem adds_readers (own : Option Future) (index : ClientId) (reference : FutureRef)
    (readers : Nat) (response : Response) :
    machine.Adds (some index)
      (machine.perform own (.readers index reference readers response)).2 := by
  refine machine.adds_withFuture own reference fun future => ?_
  split
  · exact .nothing rfl
  · split
    · exact .nothing rfl
    · exact machine.adds_call index (spawns_pair (.inl rfl) rfl)

private theorem adds_resolveDirect (own : Option Future) (reference : FutureRef)
    (value : Response) (callback : Option Program) :
    machine.Adds none (machine.perform own (.resolveDirect reference value callback)).2 := by
  refine machine.adds_withFuture own reference fun future => ?_
  dsimp only
  split
  · exact .nothing rfl
  next wakers completed cells resolved =>
    refine .push rfl ?_
    cases completed.callback <;> exact ⟨by simp [Task.client?], rfl⟩

private theorem adds_perform (own : Option Future) (op : Op) :
    machine.Adds op.client? (machine.perform own op).2 := by
  cases op with
  | submit index request callback =>
    exact machine.adds_call index (spawns_pair (.inl rfl) (by cases callback <;> rfl))
  | submitMany index count =>
    unfold perform
    dsimp only
    split
    · exact .nothing rfl
    · exact machine.adds_series rfl index count 0 0 none
  | complete index target response =>
    exact machine.adds_withTarget own target fun sequence =>
      machine.adds_call index (spawns_single rfl)
  | cancel index reference =>
    exact machine.adds_withFuture own reference fun future =>
      machine.adds_call index (spawns_single rfl)
  | pruneAll index | pruneOlder index | pruneStale index | isAvailable index | dispose index =>
    exact machine.adds_call index (spawns_single rfl)
  | wait index timeout token simple onSleep onCheck =>
    have waits : ∀ phase : Phase Program, Task.heralded [.advance index phase, .closeHooks,
        .finish (.wait simple)] = true → Task.Spawns (some index)
          [.advance index phase, .closeHooks, .finish (.wait simple)] := by
      intro phase heralded
      refine ⟨fun task member _ => ?_, heralded⟩
      simp only [List.mem_cons, List.not_mem_nil, or_false] at member
      rcases member with rfl | rfl | rfl
      · exact .inr rfl
      · exact .inl rfl
      · exact .inl rfl
    unfold perform
    dsimp only
    split
    · exact .inr ⟨_, rfl, waits _ rfl⟩
    · exact .inr ⟨_, rfl, waits _ rfl⟩
    · exact .nothing rfl
  | isPending index target => exact machine.adds_withTarget own target fun _ => .nothing rfl
  | future reference | get reference | cloneFuture reference | poll reference waker =>
    exact machine.adds_withFuture own reference fun _ => .nothing rfl
  | same left right =>
    exact machine.adds_withFuture own left fun _ =>
      machine.adds_withFuture own right fun _ => .nothing rfl
  | getWithin reference timeout =>
    exact machine.adds_withFuture own reference fun future =>
      machine.patiently_cases (motive := fun result => machine.Adds none result.2)
        (fun _ => .nothing rfl) _ timeout _ fun _ => .nothing rfl
  | resolveDirect reference value callback =>
    exact machine.adds_resolveDirect own reference value callback
  | readers index reference readers response =>
    exact machine.adds_readers own index reference readers response
  | race index reference threads response =>
    refine machine.adds_withFuture own reference fun future => ?_
    split
    · exact .nothing rfl
    · exact machine.adds_race rfl index future.sequence response threads []
  | raceSubmit index threads each =>
    unfold perform
    dsimp only
    split
    · exact .nothing rfl
    · exact machine.adds_raceSubmit rfl index (threads * each) []
  | failNext transport | forceNext transport => exact machine.adds_changeTransport transport _
  | now =>
    unfold perform
    exact machine.adds_viewTime _ _
  | token | cancelToken =>
    unfold perform
    dsimp only
    split <;> exact .nothing rfl
  | raise message => exact .inl rfl
  | _ => exact .nothing rfl

private theorem adds_finish (finish : Finish) :
    machine.Adds finish.client? (machine.finish finish) := by
  unfold Machine.finish
  cases finish with
  | submission | readers =>
    dsimp only
    split <;> exact .nothing rfl
  | wait simple =>
    dsimp only
    split
    · split <;> exact .nothing rfl
    · exact .nothing rfl
  | series index total sent accepted lastError =>
    dsimp only
    split
    · refine machine.adds_series ?_ index total sent _ _
      rfl
    · exact machine.adds_series rfl index total sent _ _
    · exact .nothing rfl
  | race index sequence response remaining counts =>
    dsimp only
    split
    · exact machine.adds_race rfl index sequence response remaining _
    · exact .nothing rfl
  | raceSubmit index remaining futures =>
    dsimp only
    split <;> exact machine.adds_raceSubmit rfl index remaining _

private theorem agenda_afterSleep (machine : Machine) :
    ∃ program, machine.afterSleep.agenda = tasks program none ++ machine.agenda := by
  unfold afterSleep
  split
  · exact ⟨[], rfl⟩
  · exact ⟨_, rfl⟩

private theorem agenda_beforeQuery (machine : Machine) :
    ∃ program, machine.beforeQuery.agenda = tasks program none ++ machine.agenda := by
  unfold beforeQuery
  split
  · exact ⟨[], rfl⟩
  · exact ⟨_, rfl⟩

private theorem spawns_following (index : ClientId) {next : Next Program}
    (calm : next.submits = false) : Task.Spawns (some index) (following index next) := by
  cases next with
  | goesOn phase =>
    refine spawns_single (Task.heralded_of_plain fun task member => ?_)
    rw [List.mem_singleton.mp member]
    cases phase with
    | submit => cases calm
    | _ => rfl
  | callsBack future callback => exact ⟨by simp [following, Task.client?], rfl⟩
  | returned | failed => exact .nil _

private theorem adds_step (index : ClientId) (phase : Phase Program) :
    machine.Adds (some index) (machine.step index phase).2 := by
  cases made : machine.session.world.step? index phase with
  | none =>
    unfold Machine.step
    rw [made]
    exact .nothing rfl
  | some result =>
    obtain ⟨turn, world⟩ := result
    obtain ⟨client, -, same, -⟩ := World.step?_eq_some made
    have owner : turn.client = index := by rw [same]
    have calm : turn.next.submits = false := by
      rw [same]
      exact client.submits_step machine.session.world.environment phase
    have resumed : ∀ next : Machine, next.agenda = machine.agenda →
        (next.resume turn.client turn.next).agenda = following index turn.next ++ machine.agenda
          ∨ (next.resume turn.client turn.next).agenda = []
            ∧ (next.resume turn.client turn.next).hooks = [] := by
      intro next same
      rw [← same, owner]
      cases turn.next with
      | failed fault => exact .inr ⟨rfl, rfl⟩
      | _ => exact .inl rfl
    rw [step_eq made]
    unfold proceed
    dsimp only
    rcases resumed { machine with session := { machine.session with world } } rfl with
      goes | ⟨gone, unhooked⟩
    · split
      · obtain ⟨program, equal⟩ := agenda_afterSleep
          ({ machine with session := { machine.session with world } }.resume turn.client turn.next)
        refine .inr ⟨tasks program none ++ following index turn.next, ?_,
          (Task.spawns_tasks _ program none).append (spawns_following index calm)⟩
        rw [equal, goes, List.append_assoc]
      · exact .inr ⟨_, goes, spawns_following index calm⟩
    · split
      · rw [afterSleep_of_hooks unhooked]
        exact .inl gone
      · exact .inl gone

theorem adds_carryOut (task : Task) : machine.Adds task.client? (machine.carryOut task).2 := by
  cases task with
  | perform op own => exact machine.adds_perform own op
  | advance index phase =>
    cases phase with
    | probeQuery purpose =>
      obtain ⟨program, equal⟩ :=
        (machine.push [.step index (.probeQuery purpose)]).agenda_beforeQuery
      refine .inr ⟨tasks program none ++ [.step index (.probeQuery purpose)], ?_, ?_⟩
      · rw [List.append_assoc]
        exact equal
      · refine (Task.spawns_tasks _ program none).append ⟨fun task member _ => ?_, rfl⟩
        rw [List.mem_singleton.mp member]
        exact .inr rfl
    | _ => exact machine.adds_step index _
  | step index phase => exact machine.adds_step index phase
  | callBack future callback => exact .push rfl (Task.spawns_tasks _ callback (some future))
  | finish finish => exact machine.adds_finish finish
  | _ => exact .nothing rfl

end Adds

end Machine

end Session

end Correlator
