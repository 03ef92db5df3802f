import Correlator.Time.Clock

/-!
Contract: virtual clocks reached through handles, several of which may share one clock.

Owns: which clock a handle reads and moves, and the making of further handles and clocks.

Does not own: what moving a clock does to it (`Correlator.Time.Clock`).
-/

set_option autoImplicit false

namespace Correlator

/-- Clocks and the handles on them: a handle is an index into `handles`, whose element is the index
of its clock. -/
structure ClockShelf where
  clocks : List VirtualClock
  handles : List Nat
deriving DecidableEq, Repr

namespace ClockShelf

/-- One clock at the origin, behind handle 0. -/
def initial : ClockShelf := ⟨[{}], [0]⟩

/-- What is asked of a clock. -/
inductive Motion where
  | advance (span : Span)
  | sleep (span : Span)
deriving DecidableEq, Repr

/-- What a motion does to the clock it reaches. -/
def Motion.apply : Motion → VirtualClock → VirtualClock
  | .advance span, clock => clock.advance span
  | .sleep span, clock => clock.sleep span

/-- The clock behind a handle. -/
def clock? (shelf : ClockShelf) (handle : Nat) : Option VirtualClock :=
  shelf.handles[handle]?.bind (shelf.clocks[·]?)

/-- Moves the clock behind a handle, and with it what every handle on that clock shows. -/
def move (shelf : ClockShelf) (handle : Nat) (motion : Motion) : ClockShelf :=
  match shelf.handles[handle]? with
  | some index => { shelf with clocks := shelf.clocks.modify index motion.apply }
  | none => shelf

/-- A further handle on the clock behind `handle`, and its index. -/
def share (shelf : ClockShelf) (handle : Nat) : Option (Nat × ClockShelf) :=
  shelf.handles[handle]?.map fun index =>
    (shelf.handles.length, { shelf with handles := shelf.handles ++ [index] })

/-- A handle on a new clock at the origin, and its index. -/
def fresh (shelf : ClockShelf) : Nat × ClockShelf :=
  (shelf.handles.length,
    { clocks := shelf.clocks ++ [{}], handles := shelf.handles ++ [shelf.clocks.length] })

end ClockShelf

end Correlator
