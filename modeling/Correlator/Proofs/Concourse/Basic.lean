import Correlator.Proofs.Client.Attempt

/-!
Contract: concourses. All that holds futures comes together: clients with their operations under way, and outside
of them entries, tables of entries and completed requests, any number of each, over the same cells.

Owns: the moves of a concourse, the concourses that one leads to, and the deeds that are done on the way.

Does not own: what the moves do to cells (`Correlator.Proofs.Concourse.Cell`), and what becomes of entries and
callbacks (`Correlator.Proofs.Concourse.Account`). Code in callbacks, inside of waits and in other threads makes
moves like any other.
-/

set_option autoImplicit false

namespace Correlator

variable {κ : Type}

/-- The callback of a completed request, with its future. -/
def Pending.Completed.call? (completed : Pending.Completed κ) : Option (Future × κ) :=
  completed.callback.map fun callback => (completed.future, callback)

/-- What is done in a concourse. -/
inductive Deed (κ : Type) where
  | turned (turn : Turn κ)
  | polled (future : Future) (waker : Waker) (answer : Option Response)
  /-- An entry was made outside of the clients. -/
  | made (entry : Pending.Entry κ)
  /-- An attempt was made outside of the clients. -/
  | attempted (attempt : Attempt κ)
  /-- A completed request was notified outside of the clients. -/
  | notified (completed : Pending.Completed κ)

namespace Deed

def attempt? : Deed κ → Option (Attempt κ)
  | .turned turn => turn.attempt?
  | .attempted attempt => some attempt
  | _ => none

/-- What a deed is to a cell, and to which. -/
def event? : Deed κ → Option (CellId × Cell.Event)
  | .polled future waker answer => some (future.cell, .polled waker answer)
  | deed => deed.attempt?.map Attempt.event

/-- The tasks that a deed wakes, in their order. -/
def woken : Deed κ → List Waker
  | .turned turn => turn.woken
  | .attempted attempt => attempt.wakers
  | _ => []

/-- The callback that a deed runs, with its future. -/
def call? : Deed κ → Option (Future × κ)
  | .turned turn => turn.handover?
  | .notified completed => completed.call?
  | _ => none

/-- The callback that may run from a deed on, with its future. -/
def frees? (deed : Deed κ) : Option (Future × κ) := deed.attempt?.bind Attempt.call?

/-- The futures for which a deed makes entries. -/
def makes : Deed κ → List Future
  | .turned turn => turn.stored
  | .made entry => [entry.future]
  | _ => []

/-- The futures whose entries a deed uses up. -/
def spends (deed : Deed κ) : List Future := (deed.attempt?.map Attempt.future).toList

end Deed

/-- Clients with their operations under way, what there is outside of them, and the deeds so far. -/
structure Concourse (κ : Type) where
  world : World κ
  underway : List (ClientId × Phase κ) := []
  /-- The entries outside of all tables. -/
  entries : List (Pending.Entry κ) := []
  /-- The tables outside of the clients. -/
  tables : List (Pending.Table κ) := []
  /-- The requests that were completed outside of the clients and have yet to be notified. -/
  completed : List (Pending.Completed κ) := []
  deeds : List (Deed κ) := []

namespace Concourse

def cells (concourse : Concourse κ) : Cells := concourse.world.environment.cells

def withCells (concourse : Concourse κ) (cells : Cells) : Concourse κ :=
  { concourse with
    world :=
      { concourse.world with environment := { concourse.world.environment with cells } } }

def did (concourse : Concourse κ) (deed : Deed κ) : Concourse κ :=
  { concourse with deeds := concourse.deeds ++ [deed] }

inductive Move : Concourse κ → Concourse κ → Prop where
  /-- An operation on a client begins. -/
  | enter {concourse : Concourse κ} (client : ClientId) (phase : Phase κ)
      (opening : phase.isOpening = true) :
      Move concourse { concourse with underway := (client, phase) :: concourse.underway }
  /-- An operation under way makes its next step. -/
  | proceed {concourse : Concourse κ} (front back : List (ClientId × Phase κ)) (client : ClientId)
      (phase : Phase κ) (turn : Turn κ) (world : World κ)
      (split : concourse.underway = front ++ (client, phase) :: back)
      (made : concourse.world.step? client phase = some (turn, world)) :
      Move concourse
        ({ concourse with
            world
            underway := front ++ (turn.next.phase?.map fun phase => (client, phase)).toList ++ back }.did
          (.turned turn))
  /-- An operation under way is given up. -/
  | abandon {concourse : Concourse κ} (front back : List (ClientId × Phase κ)) (client : ClientId)
      (phase : Phase κ) (split : concourse.underway = front ++ (client, phase) :: back) :
      Move concourse { concourse with underway := front ++ back }
  /-- Code outside of the clients acts on what they share other than cells. -/
  | outside {concourse : Concourse κ} (act : Outside)
      (pollsNot : ∀ future waker, act ≠ .poll future waker) :
      Move concourse
        { concourse with
          world :=
            { concourse.world with environment := act.apply concourse.world.environment } }
  /-- A task polls a future. -/
  | poll {concourse : Concourse κ} (future : Future) (waker : Waker)
      (known : future.cell < concourse.cells.length) :
      Move concourse
        ((concourse.withCells (concourse.cells.poll future waker).2).did
          (.polled future waker (concourse.cells.poll future waker).1))
  /-- A new cell is made. -/
  | fresh {concourse : Concourse κ} (sequence : Sequence) :
      Move concourse (concourse.withCells (concourse.cells.fresh sequence).2)
  /-- An entry is made for a future, with any callback and any time of submission. -/
  | make {concourse : Concourse κ} (entry : Pending.Entry κ)
      (known : entry.future.cell < concourse.cells.length) :
      Move concourse ({ concourse with entries := entry :: concourse.entries }.did (.made entry))
  /-- A new table is made. -/
  | furnish {concourse : Concourse κ} :
      Move concourse { concourse with tables := concourse.tables ++ [.empty] }
  /-- An entry is put into a table in which its number is free. -/
  | insert {concourse : Concourse κ} (front back : List (Pending.Entry κ))
      (before after : List (Pending.Table κ)) (entry : Pending.Entry κ) (table grown : Pending.Table κ)
      (entries_eq : concourse.entries = front ++ entry :: back)
      (tables_eq : concourse.tables = before ++ table :: after)
      (inserted : table.insert? entry = some grown) :
      Move concourse
        { concourse with entries := front ++ back, tables := before ++ grown :: after }
  /-- An entry is taken out of a table. -/
  | take {concourse : Concourse κ} (before after : List (Pending.Table κ)) (sequence : Sequence)
      (entry : Pending.Entry κ) (table rest : Pending.Table κ)
      (tables_eq : concourse.tables = before ++ table :: after)
      (removed : table.remove? sequence = some (entry, rest)) :
      Move concourse
        { concourse with entries := entry :: concourse.entries, tables := before ++ rest :: after }
  /-- Entries in a table are dropped, be it all of them, or those from before a point in time. -/
  | thin {concourse : Concourse κ} (before after : List (Pending.Table κ)) (table : Pending.Table κ)
      (stays : Sequence × Pending.Entry κ → Bool)
      (tables_eq : concourse.tables = before ++ table :: after) :
      Move concourse
        { concourse with tables := before ++ ⟨table.rows.filter stays⟩ :: after }
  /-- An entry outside of all tables is dropped. -/
  | discard {concourse : Concourse κ} (front back : List (Pending.Entry κ)) (entry : Pending.Entry κ)
      (entries_eq : concourse.entries = front ++ entry :: back) :
      Move concourse { concourse with entries := front ++ back }
  /-- An entry outside of all tables is used up to complete its request. -/
  | resolve {concourse : Concourse κ} (front back : List (Pending.Entry κ)) (entry : Pending.Entry κ)
      (value : Response) (wakers : List Waker) (completed : Pending.Completed κ) (cells : Cells)
      (entries_eq : concourse.entries = front ++ entry :: back)
      (filled : entry.resolve concourse.cells value = .ok (wakers, completed, cells)) :
      Move concourse
        (({ concourse with
            entries := front ++ back
            completed := completed :: concourse.completed }.withCells cells).did
          (.attempted ⟨entry.future, value, .ok (wakers, completed.callback)⟩))
  /-- An entry outside of all tables is used up in vain, since its request has a response. -/
  | refuse {concourse : Concourse κ} (front back : List (Pending.Entry κ)) (entry : Pending.Entry κ)
      (value : Response) (error : ClientError)
      (entries_eq : concourse.entries = front ++ entry :: back)
      (refused : entry.resolve concourse.cells value = .error error) :
      Move concourse
        ({ concourse with entries := front ++ back }.did
          (.attempted ⟨entry.future, value, .error error⟩))
  /-- A completed request is notified: its callback runs, if it has one. -/
  | notify {concourse : Concourse κ} (front back : List (Pending.Completed κ))
      (completed : Pending.Completed κ)
      (completed_eq : concourse.completed = front ++ completed :: back) :
      Move concourse ({ concourse with completed := front ++ back }.did (.notified completed))
  /-- A completed request is dropped without that. -/
  | forget {concourse : Concourse κ} (front back : List (Pending.Completed κ))
      (completed : Pending.Completed κ)
      (completed_eq : concourse.completed = front ++ completed :: back) :
      Move concourse { concourse with completed := front ++ back }

inductive Leads (start : Concourse κ) : Concourse κ → Prop where
  | here : Leads start start
  | move {concourse next : Concourse κ} (leads : Leads start concourse) (move : Move concourse next) :
      Leads start next

theorem Leads.trans {start middle finish : Concourse κ} (first : Leads start middle)
    (second : Leads middle finish) : Leads start finish := by
  induction second with
  | here => exact first
  | move _ move inductionHypothesis => exact .move inductionHypothesis move

/-- A property that every move keeps holds ever after. -/
theorem Leads.keeps {property : Concourse κ → Prop} {start concourse : Concourse κ}
    (leads : Leads start concourse) (initial : property start)
    (kept : ∀ concourse next, property concourse → Move concourse next → property next) :
    property concourse := by
  induction leads with
  | here => exact initial
  | move _ move inductionHypothesis => exact kept _ _ inductionHypothesis move

/-- The concourse of clients before anything happens, with nothing outside of them. -/
def opening (world : World κ) : Concourse κ := { world }

/-! ### One move after the other -/

def enter (concourse : Concourse κ) (client : ClientId) (phase : Phase κ) : Concourse κ :=
  { concourse with underway := (client, phase) :: concourse.underway }

/-- The operation that began last makes its next step. -/
def next (concourse : Concourse κ) : Concourse κ :=
  match concourse.underway with
  | [] => concourse
  | (client, phase) :: back =>
    match concourse.world.step? client phase with
    | none => concourse
    | some (turn, world) =>
      { concourse with
        world
        underway := [] ++ (turn.next.phase?.map fun phase => (client, phase)).toList ++ back }.did
        (.turned turn)

def poll (concourse : Concourse κ) (future : Future) (waker : Waker) : Concourse κ :=
  (concourse.withCells (concourse.cells.poll future waker).2).did
    (.polled future waker (concourse.cells.poll future waker).1)

def make (concourse : Concourse κ) (entry : Pending.Entry κ) : Concourse κ :=
  { concourse with entries := entry :: concourse.entries }.did (.made entry)

/-- The entry that was made last is used up to complete its request. -/
def settle (concourse : Concourse κ) (value : Response) : Concourse κ :=
  match concourse.entries with
  | [] => concourse
  | entry :: back =>
    match entry.resolve concourse.cells value with
    | .ok (wakers, completed, cells) =>
      ({ concourse with
          entries := [] ++ back
          completed := completed :: concourse.completed }.withCells cells).did
        (.attempted ⟨entry.future, value, .ok (wakers, completed.callback)⟩)
    | .error error =>
      { concourse with entries := [] ++ back }.did (.attempted ⟨entry.future, value, .error error⟩)

/-- The request that was completed last is notified. -/
def tell (concourse : Concourse κ) : Concourse κ :=
  match concourse.completed with
  | [] => concourse
  | completed :: back => { concourse with completed := [] ++ back }.did (.notified completed)

namespace Leads

variable {start concourse : Concourse κ}

theorem next (leads : start.Leads concourse) : start.Leads concourse.next := by
  unfold Concourse.next
  split
  next => exact leads
  next client phase back split =>
    split
    next => exact leads
    next turn world made => exact .move leads (.proceed [] back client phase turn world split made)

theorem settle (leads : start.Leads concourse) (value : Response) :
    start.Leads (concourse.settle value) := by
  unfold Concourse.settle
  split
  next => exact leads
  next entry back entries_eq =>
    split
    next wakers completed cells filled =>
      exact .move leads (.resolve [] back entry value wakers completed cells entries_eq filled)
    next error refused => exact .move leads (.refuse [] back entry value error entries_eq refused)

theorem tell (leads : start.Leads concourse) : start.Leads concourse.tell := by
  unfold Concourse.tell
  split
  next => exact leads
  next completed back completed_eq => exact .move leads (.notify [] back completed completed_eq)

end Leads

end Concourse

end Correlator
