import Mathlib.Data.Finmap
import Correlator.Proofs.Pending.Table

/-!
Contract: what is asked of a pending table, and the same asked of a finite map.

Owns: the commands to a table with their answers, the finite maps from numbers to entries that answer the same
commands, and that a table answers all commands as the map of its rows does.

Does not own: what becomes of the entries that are passed in (`Correlator.Proofs.Pending.Custody`).
-/

set_option autoImplicit false

namespace Correlator.Pending

variable {κ : Type}

/-- What is asked of a table. -/
inductive Command (κ : Type) where
  | insert (entry : Entry κ)
  | remove (sequence : Sequence)
  | clear
  | removeBefore (cutoff : Moment)
deriving DecidableEq, Repr

/-- What a table answers. -/
inductive Answer (κ : Type) where
  | inserted
  /-- The entry that was to be inserted is not taken in. -/
  | handedBack (entry : Entry κ)
  | removed (found : Option (Entry κ))
  | dropped (count : Nat)
deriving DecidableEq, Repr

namespace Table

def perform (table : Table κ) : Command κ → Answer κ × Table κ
  | .insert entry =>
    match table.insert? entry with
    | some grown => (.inserted, grown)
    | none => (.handedBack entry, table)
  | .remove sequence =>
    match table.remove? sequence with
    | some (entry, rest) => (.removed (some entry), rest)
    | none => (.removed none, table)
  | .clear => (.dropped table.clear.1, table.clear.2)
  | .removeBefore cutoff => (.dropped (table.removeBefore cutoff).1, (table.removeBefore cutoff).2)

theorem Filed.perform {table : Table κ} (filed : table.Filed) (command : Command κ) :
    (table.perform command).2.Filed := by
  cases command with
  | insert entry =>
    unfold Table.perform
    dsimp only
    split
    next inserted => exact filed.insert? inserted
    next => exact filed
  | remove sequence =>
    unfold Table.perform
    dsimp only
    split
    next removed =>
      obtain ⟨-, rfl⟩ := remove?_eq_some removed
      exact filed.erase sequence
    next => exact filed
  | clear => exact filed_empty
  | removeBefore cutoff => exact filed.filter _

end Table

/-- A finite map from numbers to entries. -/
abbrev Register (κ : Type) := Finmap fun _ : Sequence => Entry κ

namespace Register

/-- The map without the rows that have a property. -/
def without (register : Register κ) (leaves : Sequence → Entry κ → Bool) : Register κ where
  entries := register.entries.filter fun row => leaves row.1 row.2 = false
  nodupKeys := Multiset.nodup_keys.mp <|
    Multiset.nodup_of_le (Multiset.map_le_map (Multiset.filter_le _ _)) register.nodupKeys.nodup_keys

def perform (register : Register κ) : Command κ → Answer κ × Register κ
  | .insert entry =>
    if entry.sequence ∈ register then (.handedBack entry, register)
    else (.inserted, register.insert entry.sequence entry)
  | .remove sequence => (.removed (register.lookup sequence), register.erase sequence)
  | .clear => (.dropped register.keys.card, ∅)
  | .removeBefore cutoff =>
    (.dropped (register.entries.countP fun row => row.2.submittedAt < cutoff),
      register.without fun _ entry => decide (entry.submittedAt < cutoff))

/-- To erase a number is to go on without the row under it. -/
theorem erase_eq_without (register : Register κ) (sequence : Sequence) :
    register.erase sequence = register.without fun number _ => number == sequence := by
  refine Finmap.ext_lookup fun number => Option.ext fun entry => ?_
  rw [← Option.mem_def, ← Option.mem_def, Finmap.mem_lookup_iff (s := register.without _)]
  by_cases same : number = sequence
  · subst same
    rw [Finmap.lookup_erase]
    simp [without]
  · rw [Finmap.lookup_erase_ne same, Finmap.mem_lookup_iff]
    simp [without, same]

end Register

namespace Table

/-- The rows of a table in any order. -/
def graph (table : Table κ) : Multiset (Σ _ : Sequence, Entry κ) := ↑(table.rows.map Prod.toSigma)

/-- The map has the rows of the table, which is in order. -/
structure Represents (table : Table κ) (register : Register κ) : Prop where
  filed : table.Filed
  entries : register.entries = table.graph

theorem perm_place (sequence : Sequence) (entry : Entry κ) (rows : List (Sequence × Entry κ)) :
    (place sequence entry rows).Perm ((sequence, entry) :: rows) := by
  induction rows with
  | nil => exact .refl _
  | cons head tail inductionHypothesis =>
    unfold place
    split
    · exact .refl _
    · exact (inductionHypothesis.cons head).trans (.swap _ _ _)

/-- No row is under a number that the table does not contain. -/
theorem ne_of_not_contains {table : Table κ} {sequence : Sequence}
    (absent : table.contains sequence = false) {row : Sequence × Entry κ} (member : row ∈ table.rows) :
    row.1 ≠ sequence := by
  rintro rfl
  rw [contains_iff.mpr ⟨row.2, member⟩] at absent
  cases absent

/-- A removal of old entries counts the rows that go. -/
theorem removeBefore_count (table : Table κ) (cutoff : Moment) :
    (table.removeBefore cutoff).1
      = (table.rows.filter fun row => decide (row.2.submittedAt < cutoff)).length := by
  have parts := countP_filter_add table.rows (fun row => decide (row.2.submittedAt < cutoff))
    fun _ => true
  simp only [List.countP_true] at parts
  show table.rows.length - (table.rows.filter _).length = _
  omega

namespace Represents

variable {table : Table κ} {register : Register κ}

theorem empty : (Table.empty : Table κ).Represents ∅ := ⟨filed_empty, rfl⟩

variable (represents : table.Represents register)

include represents

theorem find?_eq (sequence : Sequence) : table.find? sequence = register.lookup sequence := by
  refine Option.ext fun entry => ?_
  rw [find?_eq_some_iff represents.filed, ← Option.mem_def, Finmap.mem_lookup_iff,
    represents.entries, graph, Multiset.mem_coe, List.mem_map]
  constructor
  · intro member
    exact ⟨_, member, rfl⟩
  · rintro ⟨⟨number, own⟩, member, same⟩
    cases same
    exact member

theorem contains_iff_mem {sequence : Sequence} :
    table.contains sequence = true ↔ sequence ∈ register := by
  unfold contains
  rw [represents.find?_eq, Finmap.lookup_isSome]

/-- The numbers of the table are the keys of the map. -/
theorem size_eq : table.size = register.keys.card := by
  have counted : register.entries.keys.card = table.rows.length := by
    rw [represents.entries]
    simp [graph, Multiset.keys]
  exact counted.symm

/-- What leaves both is the same. -/
theorem without (leaves : Sequence → Entry κ → Bool) :
    (⟨table.rows.filter fun row => !leaves row.1 row.2⟩ : Table κ).Represents
      (register.without leaves) := by
  refine ⟨represents.filed.filter _, ?_⟩
  show register.entries.filter (fun row => leaves row.1 row.2 = false) = _
  rw [represents.entries, graph, Multiset.filter_coe, List.filter_map]
  have same : ∀ row ∈ table.rows, decide (leaves row.1 row.2 = false) = !leaves row.1 row.2 := by
    intro row _
    cases leaves row.1 row.2 <;> rfl
  exact congrArg (fun rows => graph ⟨rows⟩) (List.filter_congr same)

theorem insert? {entry : Entry κ} {grown : Table κ} (inserted : table.insert? entry = some grown) :
    grown.Represents (register.insert entry.sequence entry) := by
  refine ⟨represents.filed.insert? inserted, ?_⟩
  obtain ⟨free, rfl⟩ := insert?_eq_some inserted
  have absent : entry.sequence ∉ register := fun present => by
    rw [represents.contains_iff_mem.mpr present] at free
    cases free
  rw [Finmap.entries_insert_of_notMem absent, represents.entries, graph, Multiset.cons_coe]
  exact Multiset.coe_eq_coe.mpr ((perm_place entry.sequence entry table.rows).symm.map Prod.toSigma)

/-- Asked the same, a table answers as the map of its rows does, and its rows are then the map that is left. -/
theorem perform (command : Command κ) :
    (table.perform command).1 = (register.perform command).1
      ∧ (table.perform command).2.Represents (register.perform command).2 := by
  cases command with
  | insert entry =>
    unfold Table.perform Register.perform
    dsimp only
    split
    next grown inserted =>
      have free := (insert?_eq_some inserted).1
      rw [if_neg fun present => by
        rw [represents.contains_iff_mem.mpr present] at free
        cases free]
      exact ⟨rfl, represents.insert? inserted⟩
    next refused =>
      rw [if_pos (represents.contains_iff_mem.mp (insert?_eq_none.mp refused))]
      exact ⟨rfl, represents⟩
  | remove sequence =>
    have rest := represents.without fun number _ => number == sequence
    rw [← register.erase_eq_without] at rest
    unfold Table.perform Register.perform
    dsimp only
    split
    next entry left removed =>
      obtain ⟨found, rfl⟩ := remove?_eq_some removed
      rw [← represents.find?_eq, found]
      exact ⟨rfl, rest⟩
    next missed =>
      have absent := remove?_eq_none.mp missed
      have none : table.find? sequence = none := by
        unfold contains at absent
        exact Option.isSome_eq_false_iff.mp absent |> Option.isNone_iff_eq_none.mp
      have kept : (table.rows.filter fun row => !(row.1 == sequence)) = table.rows :=
        List.filter_eq_self.mpr fun row member => by simp [ne_of_not_contains absent member]
      rw [kept] at rest
      rw [← represents.find?_eq, none]
      exact ⟨rfl, rest⟩
  | clear => exact ⟨congrArg Answer.dropped represents.size_eq, .empty⟩
  | removeBefore cutoff =>
    have rest := represents.without fun _ entry => decide (entry.submittedAt < cutoff)
    have dropped : register.entries.countP (fun row => row.2.submittedAt < cutoff)
        = (table.rows.filter fun row => decide (row.2.submittedAt < cutoff)).length := by
      rw [represents.entries, graph, Multiset.coe_countP, List.countP_map, List.countP_eq_length_filter]
      rfl
    exact ⟨congrArg Answer.dropped ((removeBefore_count table cutoff).trans dropped.symm), rest⟩

end Represents

end Table

end Correlator.Pending
