import Correlator.Pending.Entry

/-!
Contract: the table of pending requests, a finite map from numbers to entries.

Owns: the ascending order of the numbers, the refusal of a number that is taken, and the removal of
single entries, of old entries and of all.

Does not own: what becomes of an entry that leaves the table (`Correlator.Client.Operation`).
-/

set_option autoImplicit false

namespace Correlator.Pending

/-- Entries under their numbers, in ascending order. -/
structure Table (κ : Type) where
  rows : List (Sequence × Entry κ)
deriving DecidableEq, Repr

namespace Table

variable {κ : Type}

def empty : Table κ := ⟨[]⟩

instance : Inhabited (Table κ) := ⟨empty⟩

def find? (table : Table κ) (sequence : Sequence) : Option (Entry κ) :=
  (table.rows.find? (·.1 == sequence)).map (·.2)

def contains (table : Table κ) (sequence : Sequence) : Bool := (table.find? sequence).isSome

def size (table : Table κ) : Nat := table.rows.length

def isEmpty (table : Table κ) : Bool := table.rows.isEmpty

/-- The numbers of the entries, in ascending order. -/
def sequences (table : Table κ) : List Sequence := table.rows.map (·.1)

/-- Puts a row in front of the first row with a greater number. -/
def place (sequence : Sequence) (entry : Entry κ) :
    List (Sequence × Entry κ) → List (Sequence × Entry κ)
  | [] => [(sequence, entry)]
  | row :: rows =>
    if sequence < row.1 then (sequence, entry) :: row :: rows
    else row :: place sequence entry rows

/-- Puts an entry under its number; none if the number is taken. -/
def insert? (table : Table κ) (entry : Entry κ) : Option (Table κ) :=
  if table.contains entry.sequence then none
  else some ⟨place entry.sequence entry table.rows⟩

def erase (table : Table κ) (sequence : Sequence) : Table κ :=
  ⟨table.rows.filter (·.1 != sequence)⟩

def remove? (table : Table κ) (sequence : Sequence) : Option (Entry κ × Table κ) :=
  (table.find? sequence).map fun entry => (entry, table.erase sequence)

/-- Drops all entries, and tells how many there were. -/
def clear (table : Table κ) : Nat × Table κ := (table.size, empty)

/-- The table without the entries submitted strictly before a point in time. -/
def since (table : Table κ) (cutoff : Moment) : Table κ :=
  ⟨table.rows.filter fun row => !decide (row.2.submittedAt < cutoff)⟩

/-- Drops the entries submitted strictly before a point in time, and tells how many there were. -/
def removeBefore (table : Table κ) (cutoff : Moment) : Nat × Table κ :=
  (table.size - (table.since cutoff).size, table.since cutoff)

/-- The written form: the numbers on one line. -/
def describe (table : Table κ) : String := Sequence.describeList table.sequences

end Table

end Correlator.Pending
