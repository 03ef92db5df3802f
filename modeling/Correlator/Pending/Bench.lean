import Correlator.Pending.Table

/-!
Contract: pending requests handled one by one, inside and outside of a table.

Owns: where each entry is (in a slot of its own, in the table, or used up), the futures under which
entries are made, and the completed requests whose callbacks have yet to run.

Does not own: the table (`Correlator.Pending.Table`) and the cells (`Correlator.Response.Cell`).
-/

set_option autoImplicit false

namespace Correlator.Pending

/-- Entries at hand. A callback is named by the slot in which its entry was made. -/
structure Bench where
  cells : Cells := []
  futures : List Future := []
  slots : List (Option (Entry Nat)) := []
  completed : List (Option (Completed Nat)) := []
  table : Table Nat := .empty
deriving Repr

/-- What is done with the entries at hand. -/
inductive Action where
  | enter (sequence : Sequence) (submittedAt : Moment) (hasCallback : Bool)
  /-- Makes a further entry for a future. -/
  | enterAgain (future : Nat) (submittedAt : Moment) (hasCallback : Bool)
  /-- Moves an entry from its slot into the table, if its number is free there. -/
  | insert (slot : Nat)
  /-- Moves an entry from the table into a slot of its own. -/
  | remove (sequence : Sequence)
  | clear
  | removeBefore (cutoff : Moment)
  /-- Uses up the entry in a slot to complete its request. -/
  | resolve (slot : Nat) (value : Response)
  /-- Runs the callback of a completed request, if it has one. -/
  | notify (completed : Nat)
deriving DecidableEq, Repr

inductive Outcome where
  | entered (entry : Entry Nat)
  | inserted
  | rejected (entry : Entry Nat)
  | removed (found : Option (Nat × Entry Nat))
  | dropped (count : Nat)
  | resolved (result : Except ClientError (Nat × Future))
  | notified (future : Future) (callback : Option Nat)
deriving Repr

namespace Bench

def entry? (bench : Bench) (slot : Nat) : Option (Entry Nat) := bench.slots[slot]?.join

def lay (bench : Bench) (entry : Entry Nat) : Bench :=
  { bench with slots := bench.slots ++ [some entry] }

def emptySlot (bench : Bench) (slot : Nat) : Bench :=
  { bench with slots := bench.slots.set slot none }

def enter (bench : Bench) (future : Future) (submittedAt : Moment) (hasCallback : Bool) :
    Outcome × Bench :=
  let entry : Entry Nat :=
    { future, callback := if hasCallback then some bench.slots.length else none, submittedAt }
  (.entered entry, bench.lay entry)

/-- Does something with the entries at hand; none where a slot or number is used that holds
nothing. -/
def act? (bench : Bench) : Action → Option (Outcome × Bench)
  | .enter sequence submittedAt hasCallback =>
    let (future, cells) := bench.cells.fresh sequence
    let bench := { bench with cells, futures := bench.futures ++ [future] }
    some (bench.enter future submittedAt hasCallback)
  | .enterAgain future submittedAt hasCallback =>
    bench.futures[future]?.map fun future => bench.enter future submittedAt hasCallback
  | .insert slot =>
    (bench.entry? slot).map fun entry =>
      match bench.table.insert? entry with
      | some table => (.inserted, { bench.emptySlot slot with table })
      | none => (.rejected entry, bench)
  | .remove sequence =>
    match bench.table.remove? sequence with
    | some (entry, table) =>
      some (.removed (some (bench.slots.length, entry)), { bench.lay entry with table })
    | none => some (.removed none, bench)
  | .clear =>
    let (count, table) := bench.table.clear
    some (.dropped count, { bench with table })
  | .removeBefore cutoff =>
    let (count, table) := bench.table.removeBefore cutoff
    some (.dropped count, { bench with table })
  | .resolve slot value =>
    (bench.entry? slot).map fun entry =>
      let bench := bench.emptySlot slot
      match entry.resolve bench.cells value with
      | .ok (_, completed, cells) =>
        (.resolved (.ok (bench.completed.length, completed.future)),
          { bench with cells, completed := bench.completed ++ [some completed] })
      | .error error => (.resolved (.error error), bench)
  | .notify index =>
    bench.completed[index]?.join.map fun completed =>
      (.notified completed.future completed.callback,
        { bench with completed := bench.completed.set index none })

end Bench

end Correlator.Pending
