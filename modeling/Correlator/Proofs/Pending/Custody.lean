import Correlator.Proofs.Pending.Register

/-!
Contract: every entry that is passed to a pending table, along all that is asked of the table.

Owns: the places where such an entry can be, which of them it is in by the answers of the table, that these places
are the true ones, and with this the whole account of a run that begins with the empty table.

Does not own: the finite map that answers as the table does (`Correlator.Proofs.Pending.Register`).
-/

set_option autoImplicit false

namespace Correlator.Pending

variable {κ : Type}

/-! ### Runs -/

/-- The answers to commands that follow each other, and the state after the last of them. -/
def follow {σ : Type} (perform : σ → Command κ → Answer κ × σ) (start : σ)
    (commands : List (Command κ)) : List (Answer κ) × σ :=
  commands.foldl
    (fun run command => (run.1 ++ [(perform run.2 command).1], (perform run.2 command).2)) ([], start)

theorem follow_concat {σ : Type} (perform : σ → Command κ → Answer κ × σ) (start : σ)
    (commands : List (Command κ)) (command : Command κ) :
    follow perform start (commands ++ [command])
      = ((follow perform start commands).1 ++ [(perform (follow perform start commands).2 command).1],
        (perform (follow perform start commands).2 command).2) := by
  unfold follow
  rw [List.foldl_append]
  rfl

theorem length_follow {σ : Type} (perform : σ → Command κ → Answer κ × σ) (start : σ)
    (commands : List (Command κ)) : (follow perform start commands).1.length = commands.length := by
  induction commands using List.reverseRecOn with
  | nil => rfl
  | append_singleton commands command inductionHypothesis =>
    rw [follow_concat, List.length_append, List.length_append, inductionHypothesis]
    rfl

def Table.run (commands : List (Command κ)) : List (Answer κ) × Table κ :=
  follow Table.perform .empty commands

def Register.run (commands : List (Command κ)) : List (Answer κ) × Register κ :=
  follow Register.perform ∅ commands

/-- Along a run a table answers as a finite map does. -/
theorem Table.run_represents (commands : List (Command κ)) :
    (Table.run commands).1 = (Register.run commands).1
      ∧ (Table.run commands).2.Represents (Register.run commands).2 := by
  induction commands using List.reverseRecOn with
  | nil => exact ⟨rfl, .empty⟩
  | append_singleton commands command inductionHypothesis =>
    obtain ⟨answers, represents⟩ := inductionHypothesis
    obtain ⟨answer, onward⟩ := represents.perform command
    unfold Table.run Register.run at *
    rw [follow_concat, follow_concat, answers, answer]
    exact ⟨rfl, onward⟩

/-! ### Places -/

/-- Where an entry is that was passed to a table. Commands are named by their positions in the run. -/
inductive Place where
  | stored
  | handedBack
  | returned (position : Nat)
  | discarded (position : Nat)
deriving DecidableEq, Repr

/-- The entry that a command passes to the table. -/
def Command.passed? : Command κ → Option (Entry κ)
  | .insert entry => some entry
  | _ => none

/-- Which of the entries in a table a command takes out. -/
def Command.leaves : Command κ → Entry κ → Bool
  | .insert _, _ => false
  | .remove sequence, entry => entry.sequence == sequence
  | .clear, _ => true
  | .removeBefore cutoff, entry => decide (entry.submittedAt < cutoff)

/-- Where an entry is then. -/
def Command.place (position : Nat) : Command κ → Place
  | .remove _ => .returned position
  | _ => .discarded position

namespace Answer

def handedBack? : Answer κ → Option (Entry κ)
  | .handedBack entry => some entry
  | _ => none

def returned : Answer κ → List (Entry κ)
  | .removed found => found.toList
  | _ => []

/-- How many entries were discarded. -/
def count : Answer κ → Nat
  | .dropped count => count
  | _ => 0

end Answer

/-- The entries that were passed in, one after the other, each with the one place where it is. -/
abbrev Custody (κ : Type) := List (Entry κ × Place)

namespace Custody

/-- The entries at a place. -/
def held (custody : Custody κ) (place : Place) : List (Entry κ) :=
  (custody.filter fun item => item.2 == place).map (·.1)

/-- Stored entries with a property go elsewhere. -/
def send (custody : Custody κ) (leaves : Entry κ → Bool) (place : Place) : Custody κ :=
  custody.map fun item => if item.2 == .stored && leaves item.1 then (item.1, place) else item

/-- What an answer to a command says about the entries passed in so far. -/
def record (custody : Custody κ) (position : Nat) : Command κ → Answer κ → Custody κ
  | .insert entry, .inserted => custody ++ [(entry, .stored)]
  | .insert entry, _ => custody ++ [(entry, .handedBack)]
  | command, _ => custody.send command.leaves (command.place position)

/-- What commands and the answers to them say. -/
def ofTurns (turns : List (Command κ × Answer κ)) : Custody κ :=
  turns.zipIdx.foldl (fun custody turn => custody.record turn.2 turn.1.1 turn.1.2) []

theorem ofTurns_concat (turns : List (Command κ × Answer κ)) (command : Command κ)
    (answer : Answer κ) :
    ofTurns (turns ++ [(command, answer)]) = (ofTurns turns).record turns.length command answer := by
  unfold ofTurns
  rw [List.zipIdx_append, List.foldl_append]
  simp

section Send

variable (custody : Custody κ) (leaves : Entry κ → Bool) {place other : Place}

theorem held_concat (entry : Entry κ) (spot : Place) :
    held (custody ++ [(entry, spot)]) place
      = custody.held place ++ if spot = place then [entry] else [] := by
  unfold held
  rw [List.filter_append, List.map_append]
  by_cases same : spot = place <;> simp [same]

theorem held_cons (item : Entry κ × Place) :
    held (item :: custody) place
      = if item.2 = place then item.1 :: custody.held place else custody.held place := by
  unfold held
  by_cases same : item.2 = place <;> simp [same]

theorem map_send : (custody.send leaves place).map (·.1) = custody.map (·.1) := by
  unfold send
  rw [List.map_map]
  refine List.map_congr_left fun item _ => ?_
  dsimp only [Function.comp]
  split <;> rfl

/-- What does not leave stays stored, -/
theorem held_stored_send (elsewhere : place ≠ .stored) :
    (custody.send leaves place).held .stored
      = (custody.held .stored).filter fun entry => !leaves entry := by
  induction custody with
  | nil => rfl
  | cons item rest inductionHypothesis =>
    unfold send at *
    rw [List.map_cons, held_cons, held_cons, inductionHypothesis]
    by_cases stored : item.2 = .stored
    · cases goes : leaves item.1 <;> simp [stored, goes, elsewhere]
    · simp [stored]

/-- what leaves goes to its place, if nothing has been there, -/
theorem held_place_send (elsewhere : place ≠ .stored) (unused : custody.held place = []) :
    (custody.send leaves place).held place = (custody.held .stored).filter leaves := by
  induction custody with
  | nil => rfl
  | cons item rest inductionHypothesis =>
    unfold send at *
    rw [held_cons] at unused
    rw [List.map_cons, held_cons, held_cons]
    split at unused
    · cases unused
    next different =>
      rw [inductionHypothesis unused]
      by_cases stored : item.2 = .stored
      · cases goes : leaves item.1 <;> simp [stored, goes, elsewhere.symm]
      · simp [stored, different]

/-- and nothing changes at the other places. -/
theorem held_send (elsewhere : other ≠ .stored) (different : other ≠ place) :
    (custody.send leaves place).held other = custody.held other := by
  induction custody with
  | nil => rfl
  | cons item rest inductionHypothesis =>
    unfold send at *
    rw [List.map_cons, held_cons, held_cons, inductionHypothesis]
    by_cases stored : item.2 = .stored
    · cases leaves item.1 <;> simp [stored, elsewhere.symm, different.symm]
    · simp [stored]

end Send

end Custody

/-! ### What the commands take out -/

namespace Table

def entries (table : Table κ) : List (Entry κ) := table.rows.map (·.2)

variable {table : Table κ}

/-- In a table in order, the rows of a number are those of the entries with this number. -/
theorem Filed.map_filter (filed : table.Filed) (property : Sequence → Entry κ → Bool) :
    (table.rows.filter fun row => property row.1 row.2).map (·.2)
      = table.entries.filter fun entry => property entry.sequence entry := by
  unfold entries
  rw [List.filter_map]
  refine congrArg (List.map _) (List.filter_congr fun row member => ?_)
  rw [filed.own row member]
  rfl

theorem entries_insert? {entry : Entry κ} {grown : Table κ}
    (inserted : table.insert? entry = some grown) :
    grown.entries.Perm (table.entries ++ [entry]) := by
  obtain ⟨-, rfl⟩ := insert?_eq_some inserted
  have placed : (entries ⟨place entry.sequence entry table.rows⟩).Perm (entry :: table.entries) :=
    (perm_place entry.sequence entry table.rows).map Prod.snd
  exact placed.trans (List.perm_append_singleton entry _).symm

/-- A removal hands out what has the number, which is one entry at most. -/
theorem Filed.remove (filed : table.Filed) (sequence : Sequence) :
    ∃ found : Option (Entry κ), (table.perform (.remove sequence)).1 = .removed found
      ∧ table.entries.filter (·.sequence == sequence) = found.toList
      ∧ (table.perform (.remove sequence)).2.entries
        = table.entries.filter fun entry => !(entry.sequence == sequence) := by
  have gone := filed.map_filter fun number _ => number == sequence
  have kept := filed.map_filter fun number _ => !(number == sequence)
  unfold Table.perform
  dsimp only
  split
  next entry rest removed =>
    obtain ⟨found, rfl⟩ := remove?_eq_some removed
    rw [filed.filter_sequence found] at gone
    exact ⟨some entry, rfl, gone.symm, kept⟩
  next missed =>
    have absent : ∀ row ∈ table.rows, ¬ (row.1 == sequence) = true := fun row member same =>
      ne_of_not_contains (remove?_eq_none.mp missed) member (eq_of_beq same)
    rw [List.filter_eq_nil_iff.mpr absent] at gone
    rw [List.filter_eq_self.mpr fun row member => by simp [absent row member]] at kept
    exact ⟨none, rfl, gone.symm, kept⟩

end Table

/-! ### The account of a run -/

/-- The places are the true ones: what commands and answers say about the entries is what the table has,
hands out and counts. -/
structure Custody.Accounts (custody : Custody κ) (commands : List (Command κ))
    (answers : List (Answer κ)) (table : Table κ) : Prop where
  /-- There is one place for each entry that was passed in. -/
  passed : custody.map (·.1) = commands.filterMap Command.passed?
  stored : (custody.held .stored).Perm table.entries
  handedBack : custody.held .handedBack = answers.filterMap Answer.handedBack?
  returned : ∀ position,
    custody.held (.returned position) = answers[position]?.elim [] Answer.returned
  discarded : ∀ position,
    (custody.held (.discarded position)).length = answers[position]?.elim 0 Answer.count

namespace Custody.Accounts

variable {custody moved : Custody κ} {commands : List (Command κ)} {answers : List (Answer κ)}
  {table after : Table κ} {command : Command κ} {answer : Answer κ} {place : Place}

theorem empty : Accounts ([] : Custody κ) [] [] .empty :=
  ⟨rfl, .refl _, rfl, fun _ => rfl, fun _ => rfl⟩

/-- What the answer at a position tells, with one more answer. -/
private theorem elim_concat {α : Type} (base : α) (tells : Answer κ → α) (answers : List (Answer κ))
    (last : Answer κ) (position : Nat) :
    (answers ++ [last])[position]?.elim base tells
      = if position = answers.length then tells last else answers[position]?.elim base tells := by
  split
  next same => rw [same, List.getElem?_concat_length, Option.elim_some]
  next different =>
    by_cases below : position < answers.length
    · rw [List.getElem?_append_left below]
    · rw [List.getElem?_eq_none (by simp; omega), List.getElem?_eq_none (by omega)]

variable (accounts : custody.Accounts commands answers table)

include accounts

/-- No entry is yet where the next command would send it. -/
theorem held_next : custody.held (.returned answers.length) = []
    ∧ custody.held (.discarded answers.length) = [] := by
  have beyond : answers[answers.length]? = none := List.getElem?_eq_none (Nat.le_refl _)
  constructor
  · rw [accounts.returned, beyond, Option.elim_none]
  · rw [← List.length_eq_zero_iff, accounts.discarded, beyond, Option.elim_none]

/-- The places of what earlier commands took out stay as they are, and the answer to the next command tells what
it takes out. -/
theorem next (passed : moved.map (·.1) = custody.map (·.1) ++ command.passed?.toList)
    (stored : (moved.held .stored).Perm after.entries)
    (handedBack : moved.held .handedBack = custody.held .handedBack ++ answer.handedBack?.toList)
    (earlier : ∀ position ≠ answers.length,
      moved.held (.returned position) = custody.held (.returned position)
        ∧ moved.held (.discarded position) = custody.held (.discarded position))
    (returned : moved.held (.returned answers.length) = answer.returned)
    (discarded : (moved.held (.discarded answers.length)).length = answer.count) :
    moved.Accounts (commands ++ [command]) (answers ++ [answer]) after where
  passed := by
    rw [passed, List.filterMap_append, accounts.passed]
    cases command <;> rfl
  stored := stored
  handedBack := by
    rw [handedBack, List.filterMap_append, accounts.handedBack]
    cases answer <;> rfl
  returned := fun position => by
    rw [elim_concat]
    split
    next same => rw [same, returned]
    next different => rw [(earlier position different).1, accounts.returned]
  discarded := fun position => by
    rw [elim_concat]
    split
    next same => rw [same, discarded]
    next different => rw [(earlier position different).2, accounts.discarded]

/-- An entry is passed in, and stored or handed back. -/
theorem passIn {entry : Entry κ} (inert : answer.returned = [] ∧ answer.count = 0)
    (atHand : ∀ position, place ≠ .returned position ∧ place ≠ .discarded position)
    (stored : after.entries.Perm (table.entries ++ if place = .stored then [entry] else []))
    (handedBack : answer.handedBack?.toList = if place = .handedBack then [entry] else []) :
    Accounts (custody ++ [(entry, place)]) (commands ++ [.insert entry]) (answers ++ [answer])
      after := by
  have kept : ∀ position,
      held (custody ++ [(entry, place)]) (.returned position) = custody.held (.returned position)
        ∧ held (custody ++ [(entry, place)]) (.discarded position)
          = custody.held (.discarded position) := by
    intro position
    rw [held_concat, held_concat, if_neg (atHand position).1, if_neg (atHand position).2,
      List.append_nil, List.append_nil]
    exact ⟨rfl, rfl⟩
  refine accounts.next ?_ ?_ ?_ (fun position _ => kept position) ?_ ?_
  · exact List.map_append
  · rw [held_concat]
    exact (accounts.stored.append_right _).trans stored.symm
  · rw [held_concat, handedBack]
  · rw [(kept _).1, accounts.held_next.1, inert.1]
  · rw [(kept _).2, accounts.held_next.2, inert.2]
    rfl

/-- Entries that are stored are taken out. -/
theorem takeOut (leaves : Entry κ → Bool) (passes : command.passed? = none)
    (away : place = .returned answers.length ∨ place = .discarded answers.length)
    (rest : after.entries = table.entries.filter fun entry => !leaves entry)
    (silent : answer.handedBack? = none)
    (returned : answer.returned
      = if place = .returned answers.length then (custody.held .stored).filter leaves else [])
    (discarded : answer.count
      = if place = .discarded answers.length then (table.entries.filter leaves).length else 0) :
    (custody.send leaves place).Accounts (commands ++ [command]) (answers ++ [answer]) after := by
  have elsewhere : place ≠ .stored := by rcases away with rfl | rfl <;> simp
  have unused : custody.held place = [] := by
    rcases away with rfl | rfl
    · exact accounts.held_next.1
    · exact accounts.held_next.2
  refine accounts.next ?_ ?_ ?_ ?_ ?_ ?_
  · rw [map_send, passes]
    exact (List.append_nil _).symm
  · rw [held_stored_send _ _ elsewhere, rest]
    exact accounts.stored.filter _
  · rw [held_send _ _ (by simp) (by rcases away with rfl | rfl <;> simp), silent]
    exact (List.append_nil _).symm
  · intro position different
    constructor
    · exact held_send _ _ (by simp) (by rcases away with rfl | rfl <;> simp [different])
    · exact held_send _ _ (by simp) (by rcases away with rfl | rfl <;> simp [different])
  · rcases away with rfl | rfl
    · rw [held_place_send _ _ elsewhere unused, returned, if_pos rfl]
    · rw [held_send _ _ (by simp) (by simp), returned, if_neg (by simp), accounts.held_next.1]
  · rcases away with rfl | rfl
    · rw [held_send _ _ (by simp) (by simp), discarded, if_neg (by simp), accounts.held_next.2]
      rfl
    · rw [held_place_send _ _ elsewhere unused, discarded, if_pos rfl]
      exact (accounts.stored.filter _).length_eq

/-- Whatever is asked next, its answer keeps the account. -/
theorem perform (filed : table.Filed) (command : Command κ) :
    (custody.record answers.length command (table.perform command).1).Accounts
      (commands ++ [command]) (answers ++ [(table.perform command).1]) (table.perform command).2 := by
  cases command with
  | insert entry =>
    unfold Table.perform
    dsimp only
    split
    next grown inserted =>
      exact accounts.passIn ⟨rfl, rfl⟩ (by simp) (Table.entries_insert? inserted) rfl
    next =>
      exact accounts.passIn ⟨rfl, rfl⟩ (by simp) (by simp) rfl
  | remove sequence =>
    obtain ⟨found, answer_eq, hit, rest⟩ := filed.remove sequence
    rw [answer_eq]
    have among := accounts.stored.filter (·.sequence == sequence)
    rw [hit] at among
    refine accounts.takeOut (·.sequence == sequence) rfl (.inl rfl) rest rfl ?_ rfl
    refine Eq.trans ?_ (if_pos rfl).symm
    cases found with
    | none => exact among.eq_nil.symm
    | some entry => exact (List.perm_singleton.mp among).symm
  | clear =>
    refine accounts.takeOut (fun _ => true) rfl (.inr rfl) ?_ rfl rfl ?_
    · exact (List.filter_false _).symm
    · rw [List.filter_true]
      exact (List.length_map Prod.snd).symm.trans (if_pos rfl).symm
  | removeBefore cutoff =>
    let leaves (entry : Entry κ) : Bool := decide (entry.submittedAt < cutoff)
    refine accounts.takeOut leaves rfl (.inr rfl) ?_ rfl rfl ?_
    · exact filed.map_filter fun _ entry => !leaves entry
    · rw [← filed.map_filter fun _ entry => leaves entry, List.length_map]
      exact (Table.removeBefore_count table cutoff).trans (if_pos rfl).symm

end Custody.Accounts

/-! ### What stays -/

/-- Entries that were passed in stay on record, and those that have left stay where they are. -/
def Custody.Extends (earlier later : Custody κ) : Prop :=
  ∀ (index : Nat) (entry : Entry κ) (place : Place), earlier[index]? = some (entry, place) →
    ∃ present, later[index]? = some (entry, present) ∧ (place ≠ .stored → present = place)

namespace Custody

theorem Extends.refl (custody : Custody κ) : custody.Extends custody :=
  fun _ _ place found => ⟨place, found, fun _ => rfl⟩

theorem Extends.trans {first second third : Custody κ} (one : first.Extends second)
    (two : second.Extends third) : first.Extends third := by
  intro index entry place found
  obtain ⟨middle, foundMiddle, same⟩ := one index entry place found
  obtain ⟨last, foundLast, onward⟩ := two index entry middle foundMiddle
  refine ⟨last, foundLast, fun left => ?_⟩
  obtain rfl := same left
  exact onward left

theorem extends_append (custody more : Custody κ) : custody.Extends (custody ++ more) := by
  intro index entry place found
  have below := (List.getElem?_eq_some_iff.mp found).1
  exact ⟨place, (List.getElem?_append_left below).trans found, fun _ => rfl⟩

theorem extends_send (custody : Custody κ) (leaves : Entry κ → Bool) (place : Place) :
    custody.Extends (custody.send leaves place) := by
  intro index entry known found
  unfold send
  rw [List.getElem?_map, found, Option.map_some]
  by_cases stored : known = .stored
  · cases leaves entry <;> simp [stored]
  · exact ⟨known, by simp [stored], fun _ => rfl⟩

theorem extends_record (custody : Custody κ) (position : Nat) (command : Command κ)
    (answer : Answer κ) : custody.Extends (custody.record position command answer) := by
  cases command with
  | insert entry => cases answer <;> exact extends_append custody _
  | _ => exact extends_send custody _ _

end Custody

/-! ### Runs from the empty table -/

namespace Table

/-- Where the entries are that were passed in, by the answers of the table. -/
def custody (commands : List (Command κ)) : Custody κ :=
  Custody.ofTurns (commands.zip (run commands).1)

theorem custody_concat (commands : List (Command κ)) (command : Command κ) :
    custody (commands ++ [command])
      = (custody commands).record (run commands).1.length command
        ((run commands).2.perform command).1 := by
  have length : (run commands).1.length = commands.length := length_follow _ _ _
  have turns : (commands.zip (run commands).1).length = (run commands).1.length := by simp [length]
  have answers : (run (commands ++ [command])).1
      = (run commands).1 ++ [((run commands).2.perform command).1] :=
    congrArg Prod.fst (follow_concat _ _ _ _)
  unfold custody
  rw [answers, List.zip_append length.symm, ← turns]
  exact Custody.ofTurns_concat _ _ _

theorem accounts (commands : List (Command κ)) :
    (custody commands).Accounts commands (run commands).1 (run commands).2 := by
  induction commands using List.reverseRecOn with
  | nil => exact .empty
  | append_singleton commands command inductionHypothesis =>
    have filed := (run_represents commands).2.filed
    rw [custody_concat, show run (commands ++ [command]) = _ from follow_concat _ _ _ _]
    exact inductionHypothesis.perform filed command

theorem custody_extends (commands more : List (Command κ)) :
    (custody commands).Extends (custody (commands ++ more)) := by
  induction more using List.reverseRecOn with
  | nil =>
    rw [List.append_nil]
    exact .refl _
  | append_singleton more command inductionHypothesis =>
    rw [← List.append_assoc, custody_concat]
    exact inductionHypothesis.trans (Custody.extends_record _ _ _ _)

/-- How a table reads that has the rows of a finite map. -/
structure Reads (table : Table κ) (register : Register κ) : Prop where
  lookup : ∀ sequence, table.find? sequence = register.lookup sequence
  contains : ∀ sequence, table.contains sequence = true ↔ sequence ∈ register
  size : table.size = register.keys.card
  isEmpty : table.isEmpty = true ↔ register = ∅
  /-- The numbers ascend, and there are as many as entries. -/
  ascending : table.sequences.Pairwise (· < ·)
  length : table.sequences.length = table.size
  listed : ∀ sequence, sequence ∈ table.sequences ↔ table.contains sequence = true
  own : ∀ row ∈ table.rows, row.1 = row.2.sequence
  /-- An entry whose number is taken is handed back, and nothing changes. -/
  refuses : ∀ entry, table.contains entry.sequence = true →
    table.perform (.insert entry) = (.handedBack entry, table)
  accepts : ∀ entry, table.contains entry.sequence = false →
    ∃ grown, table.perform (.insert entry) = (.inserted, grown)
      ∧ grown.find? entry.sequence = some entry

theorem Represents.reads {table : Table κ} {register : Register κ}
    (represents : table.Represents register) : table.Reads register where
  lookup := represents.find?_eq
  contains := fun _ => represents.contains_iff_mem
  size := represents.size_eq
  isEmpty := by
    have none : register = ∅ ↔ register.keys.card = 0 := by
      rw [Finset.card_eq_zero, ← Finmap.keys_empty (β := fun _ : Sequence => Entry κ)]
      refine ⟨congrArg Finmap.keys, fun same => Finmap.ext_lookup fun sequence => ?_⟩
      have absent : sequence ∉ register := by
        rw [← Finmap.mem_keys, same]
        exact Finset.notMem_empty sequence
      rw [Finmap.lookup_eq_none.mpr absent, Finmap.lookup_empty]
    rw [none, ← represents.size_eq]
    exact List.isEmpty_iff.trans List.length_eq_zero_iff.symm
  ascending := List.pairwise_map.mpr represents.filed.ascending
  length := List.length_map _
  listed := fun sequence => by
    rw [contains_iff]
    simp [sequences]
  own := represents.filed.own
  refuses := fun entry taken => by
    unfold Table.perform
    dsimp only
    rw [insert?_eq_none.mpr taken]
  accepts := fun entry free => by
    cases inserted : table.insert? entry with
    | none =>
      rw [insert?_eq_none.mp inserted] at free
      cases free
    | some grown =>
      refine ⟨grown, by unfold Table.perform; dsimp only; rw [inserted], ?_⟩
      exact (find?_eq_some_iff (represents.filed.insert? inserted)).mpr
        ((mem_insert? inserted _).mpr (.inl rfl))

/-- A pending table is a finite map that neither loses nor duplicates entries. Whatever is asked of it, one thing
after the other, it answers as a finite map from numbers to entries does and has the same contents; and every entry
that was passed in is in one place, as the answers tell: stored, handed back, returned by one removal, or discarded
and counted by one removal of several. What has left stays where it is, whatever is asked later. -/
theorem bookkeeping (commands : List (Command κ)) :
    (run commands).1 = (Register.run commands).1
      ∧ (run commands).2.Reads (Register.run commands).2
      ∧ (custody commands).Accounts commands (run commands).1 (run commands).2
      ∧ ∀ more, (custody commands).Extends (custody (commands ++ more)) :=
  ⟨(run_represents commands).1, (run_represents commands).2.reads, accounts commands,
    custody_extends commands⟩

end Table

end Correlator.Pending
