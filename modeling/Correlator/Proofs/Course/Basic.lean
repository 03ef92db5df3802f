import Correlator.Proofs.Client.Exit
import Correlator.Proofs.Response.Cell
import Correlator.World

/-!
Contract: courses of events. Any number of operations on any number of clients are under way at a
time, their steps follow each other in any order, and code outside of the clients acts in between.

Owns: the moves of a course, the courses that one leads to, and the turns made on the way.

Does not own: what holds at every point of a course (`Correlator.Proofs.Course.Soundness`,
`Correlator.Proofs.Course.Accounts`). Code that runs in a callback or inside a wait is code outside of
the clients: it enters operations like any other.
-/

set_option autoImplicit false

namespace Correlator

/-- What code outside of the clients does to what they share. -/
inductive Outside where
  | poll (future : Future) (waker : Waker)
  | failNext (transport : TransportId) (failure : Transport.Failure)
  | forceNext (transport : TransportId) (sequence : Sequence)
  | setAvailable (registry : RegistryId) (value : Bool)
  | invalidate (host : HostId)
  | advance (clock : ClockId) (span : Span)
  | passTime (span : Span)
  | makeToken
  | shareToken (token : Token)
  | cancelToken (token : Token)
deriving DecidableEq, Repr

def Outside.apply (environment : Environment) : Outside → Environment
  | .poll future waker => { environment with cells := (environment.cells.poll future waker).2 }
  | .failNext transport failure =>
    environment.setTransport transport ((environment.transport transport).failNext failure)
  | .forceNext transport sequence =>
    environment.setTransport transport ((environment.transport transport).forceNext sequence)
  | .setAvailable registry value =>
    environment.setRegistry registry ((environment.registry registry).setAvailable value)
  | .invalidate host => environment.setHost host (environment.host host).invalidate
  | .advance clock span =>
    environment.setClock clock ((environment.clock clock).advance span)
  | .passTime span => environment.sleep span .running
  | .makeToken => { environment with tokens := environment.tokens.fresh.2 }
  | .shareToken token =>
    { environment with
      tokens := ((environment.tokens.share? token).map (·.2)).getD environment.tokens }
  | .cancelToken token => { environment with tokens := (environment.tokens.cancel token).2 }

theorem Outside.holds_apply {environment : Environment} {future : Future}
    {value : Option Response} (holds : environment.cells.Holds future value) (act : Outside) :
    (act.apply environment).cells.Holds future value := by
  cases act with
  | poll polled waker => exact holds.poll polled waker
  | _ => exact holds

namespace Phase

variable {κ : Type}

/-- The steps with which operations begin. -/
def isOpening : Phase κ → Bool
  | .submit _ _ | .complete _ _ | .cancel _ | .pruneAll | .pruneOlder _ | .pruneStale
  | .isAvailable | .wait _ _ | .dispose => true
  | _ => false

theorem not_completing_of_opening {phase : Phase κ} (opening : phase.isOpening = true) :
    phase.isCompleting = false := by
  cases phase <;> first | rfl | cases opening

end Phase

/-- The step with which an operation goes on, if it does. -/
def Next.phase? {κ : Type} : Next κ → Option (Phase κ)
  | .goesOn phase => some phase
  | _ => none

/-- Clients in an environment, the operations under way with the next step of each, and the turns
so far. -/
structure Course (κ : Type) where
  world : World κ
  underway : List (ClientId × Phase κ) := []
  turns : List (Turn κ) := []
deriving Repr

namespace World

variable {κ : Type}

/-- A step changes its client and the environment only. -/
theorem step?_eq_some {world after : World κ} {index : ClientId} {phase : Phase κ} {turn : Turn κ}
    (made : world.step? index phase = some (turn, after)) :
    ∃ client, world.clients[index]? = some client
      ∧ turn = ⟨index, client.service, phase, (client.step world.environment phase).effects,
          (client.step world.environment phase).next⟩
      ∧ after = ⟨world.clients.set index (client.step world.environment phase).client,
          (client.step world.environment phase).environment⟩ := by
  unfold step? at made
  obtain ⟨client, found, equal⟩ := Option.map_eq_some_iff.mp made
  cases equal
  exact ⟨client, found, rfl, rfl⟩

theorem getElem?_set_client {clients : List (Client κ)} {index other : ClientId}
    {old replacement client : Client κ} (found : clients[index]? = some old) :
    (clients.set index replacement)[other]? = some client ↔
      (other = index ∧ client = replacement) ∨ (other ≠ index ∧ clients[other]? = some client) := by
  have below := (List.getElem?_eq_some_iff.mp found).1
  by_cases same : other = index
  · subst same
    simp [List.getElem?_set_self below, eq_comm]
  · simp [List.getElem?_set_ne (Ne.symm same), same]

/-- No client has done anything yet. -/
def IsFresh (world : World κ) : Prop :=
  ∀ client ∈ world.clients, client.table = .empty ∧ client.tally = {} ∧ client.disposed = false

end World

namespace Course

variable {κ : Type}

inductive Move : Course κ → Course κ → Prop where
  /-- An operation on a client begins. -/
  | enter {course : Course κ} (client : ClientId) (phase : Phase κ)
      (opening : phase.isOpening = true) :
      Move course { course with underway := (client, phase) :: course.underway }
  /-- An operation under way makes its next step. -/
  | proceed {course : Course κ} (front back : List (ClientId × Phase κ)) (client : ClientId)
      (phase : Phase κ) (turn : Turn κ) (world : World κ)
      (split : course.underway = front ++ (client, phase) :: back)
      (made : course.world.step? client phase = some (turn, world)) :
      Move course
        ⟨world, front ++ (turn.next.phase?.map fun phase => (client, phase)).toList ++ back,
          course.turns ++ [turn]⟩
  /-- An operation under way is given up, because code outside that it waits for breaks off. No such
  code runs between the steps of a complete. -/
  | abandon {course : Course κ} (front back : List (ClientId × Phase κ)) (client : ClientId)
      (phase : Phase κ) (split : course.underway = front ++ (client, phase) :: back)
      (interruptible : phase.isCompleting = false) :
      Move course { course with underway := front ++ back }
  /-- Code outside of the clients acts. -/
  | outside {course : Course κ} (act : Outside) :
      Move course
        { course with
          world := { course.world with environment := act.apply course.world.environment } }

inductive Leads (start : Course κ) : Course κ → Prop where
  | here : Leads start start
  | move {course next : Course κ} (leads : Leads start course) (move : Move course next) :
      Leads start next

theorem Leads.trans {start middle finish : Course κ} (first : Leads start middle)
    (second : Leads middle finish) : Leads start finish := by
  induction second with
  | here => exact first
  | move _ move inductionHypothesis => exact .move inductionHypothesis move

/-- A property that every move keeps holds along a whole course. -/
theorem Leads.keeps {property : Course κ → Prop} {start course : Course κ}
    (leads : Leads start course) (initial : property start)
    (kept : ∀ course next, property course → Move course next → property next) :
    property course := by
  induction leads with
  | here => exact initial
  | move _ move inductionHypothesis => exact kept _ _ inductionHypothesis move

theorem Leads.turns_eq_append {start course : Course κ} (leads : Leads start course) :
    ∃ later, course.turns = start.turns ++ later := by
  induction leads with
  | here => exact ⟨[], (List.append_nil _).symm⟩
  | move _ move inductionHypothesis =>
    obtain ⟨later, equal⟩ := inductionHypothesis
    cases move with
    | enter client phase opening => exact ⟨later, equal⟩
    | proceed front back client phase turn world split made =>
      exact ⟨later ++ [turn], by simp [equal]⟩
    | abandon front back client phase split interruptible => exact ⟨later, equal⟩
    | outside act => exact ⟨later, equal⟩

/-- The turn made last was made since the start. -/
theorem Leads.eq_concat_of_turns_eq {start course : Course κ} (leads : start.Leads course)
    {turn : Turn κ} {later : List (Turn κ)}
    (turns_eq : course.turns ++ [turn] = start.turns ++ later) :
    ∃ before, course.turns = start.turns ++ before ∧ later = before ++ [turn] := by
  obtain ⟨before, same⟩ := leads.turns_eq_append
  rw [same, List.append_assoc] at turns_eq
  exact ⟨before, same, (List.append_cancel_left turns_eq).symm⟩

/-- The table of a client that is disposed of never changes again. -/
theorem Leads.frozen {start course : Course κ} (leads : start.Leads course) {index : ClientId}
    {client : Client κ} (found : start.world.clients[index]? = some client)
    (disposed : client.disposed = true) :
    ∃ later, course.world.clients[index]? = some later ∧ later.disposed = true
      ∧ later.table = client.table := by
  induction leads with
  | here => exact ⟨client, found, disposed, rfl⟩
  | @move course next _ move inductionHypothesis =>
    obtain ⟨known, search, stillDisposed, same⟩ := inductionHypothesis
    cases move with
    | enter | abandon | outside => exact ⟨known, search, stillDisposed, same⟩
    | proceed front back acting phase turn world split made =>
      obtain ⟨actor, foundActor, rfl, rfl⟩ := World.step?_eq_some made
      by_cases own : index = acting
      · subst own
        rw [search] at foundActor
        cases foundActor
        have frozen := (known.exit_step course.world.environment phase).frozen stillDisposed
        exact ⟨_, (World.getElem?_set_client search).mpr (Or.inl ⟨rfl, rfl⟩), frozen.2,
          frozen.1.trans same⟩
      · exact ⟨known, (World.getElem?_set_client foundActor).mpr (Or.inr ⟨own, search⟩),
          stillDisposed, same⟩

theorem leads_enter (course : Course κ) (entered : List (ClientId × Phase κ))
    (opening : ∀ operation ∈ entered, operation.2.isOpening = true) :
    course.Leads { course with underway := entered ++ course.underway } := by
  induction entered with
  | nil => exact .here
  | cons operation rest inductionHypothesis =>
    refine .move (inductionHypothesis fun later member =>
      opening later (List.mem_cons_of_mem _ member)) ?_
    exact .enter operation.1 operation.2 (opening operation List.mem_cons_self)

theorem leads_abandon (course : Course κ)
    (interruptible : ∀ operation ∈ course.underway, operation.2.isCompleting = false) :
    course.Leads { course with underway := [] } := by
  obtain ⟨world, underway, turns⟩ := course
  induction underway with
  | nil => exact .here
  | cons operation rest inductionHypothesis =>
    have first : Move ⟨world, operation :: rest, turns⟩ ⟨world, rest, turns⟩ :=
      .abandon [] rest operation.1 operation.2 rfl
        (interruptible operation List.mem_cons_self)
    exact (Leads.move .here first).trans (inductionHypothesis fun later member =>
      interruptible later (List.mem_cons_of_mem _ member))

/-- The course of fresh clients before anything happens. -/
def opening (world : World κ) : Course κ := { world }

end Course

end Correlator
